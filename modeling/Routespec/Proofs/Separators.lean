import Routespec.Proofs.Clauses
import Routespec.Proofs.OptionGrammar
import Routespec.Proofs.OptionRecords

/-!
# Texts with a separator between them

Two texts with a separator between them are read one after the other exactly if the first one has an
even number of quotes. Values may hold quotes, which quote nothing; splitting counts them all the
same. Behind an odd number of them the separator does not separate, and is read as a character of
the last value.
-/

namespace Routespec

namespace OptionPair

variable {sep : Char}

/-- No pair starts with a separator. -/
theorem readAll_separator (hsep : Text.Separates sep) (t : Text) {pairs : List OptionPair} :
    readAll (sep :: t) ≠ .ok pairs := by
  intro h
  have hscan : scan? (sep :: t) = none := by
    have hstart := Text.isIdentifierStart_of_isIdentifierPart hsep.part
    rw [scan?, Text.spanIdentifier, if_neg (by simp [hstart])]
  rw [readAll_of_solid hsep.blank, hscan] at h
  exact absurd h fail_ne_ok

/-- A value that a separator follows is another value, if it is one. -/
theorem scanValue?_append_separator (hsep : Text.Separates sep) {value v v' t rest : Text}
    (hvalue : SpellsValue value v) (h : scanValue? (value ++ sep :: t) = some (v', rest)) :
    v' ≠ v := by
  cases hvalue with
  | quoted hv =>
    -- the closing quote is not followed by white space
    have hcut : Text.cutAt? (· = '\'') (v ++ '\'' :: sep :: t) = some (v, sep :: t) :=
      Text.cutAt?_append_cons (fun c hc => by simpa using ne_of_mem_of_not_mem hc hv) (by simp) _
    rw [List.cons_append, scanValue?, if_pos rfl, List.append_assoc, List.singleton_append, hcut,
      Option.filter_some_neg (by simp [endsHere, hsep.blank])] at h
    cases h
  | @bare c v hstart hsolid =>
    rw [List.forall_mem_cons] at hsolid
    have hsolid' : ∀ d ∈ v, (!isBlank d) = true := by simpa using hsolid.2
    rw [List.cons_append, scanValue?, if_neg hstart, if_neg (by simp [hsolid.1]),
      List.takeWhile_append_of_pos hsolid',
      List.takeWhile_cons_of_pos (by simp [hsep.blank])] at h
    obtain ⟨rfl, -⟩ := Prod.mk.inj (Option.some.inj h)
    simp

/-- If a pair is read of one with a separator behind it, then it has another value. -/
theorem readAll_spells_separator (hsep : Text.Separates sep) {word : Text} {pair : OptionPair}
    (hword : Spells word pair) {rest : Text} {pairs : List OptionPair}
    (h : readAll (word ++ sep :: rest) = .ok pairs) :
    ∃ value more, pairs = ⟨pair.key, value⟩ :: more ∧ value ≠ pair.value := by
  rw [hword.readAll_append] at h
  obtain ⟨hkey, value, hvalue, rfl⟩ := hword
  rw [List.append_assoc, List.cons_append, scan?_key hkey] at h
  cases hfound : scanValue? (value ++ sep :: rest) with
  | none =>
    rw [hfound] at h
    exact absurd h fail_ne_ok
  | some found =>
    rw [hfound] at h
    obtain ⟨more, -, rfl⟩ := map_eq_ok.mp h
    refine ⟨_, more, rfl, fun heq => scanValue?_append_separator hsep hvalue hfound ?_⟩
    rw [← heq, String.toList_ofList]

/-- If pairs are read of a text and also of the text with a separator behind it, then they differ in
the last value of the one. -/
theorem exists_other_value {t rest : Text} {pairs pairs' : List OptionPair}
    (hsep : Text.Separates sep) (h : readAll t = .ok pairs)
    (h' : readAll (t ++ sep :: rest) = .ok pairs') :
    ∃ init key value value' more, pairs = init ++ [⟨key, value⟩] ∧
      pairs' = init ++ ⟨key, value'⟩ :: more ∧ value' ≠ value := by
  induction t using readAll.induct generalizing pairs pairs' with
  | case1 t ht =>
    have hblank : t.isBlankText = true := List.all_eq_true.mpr (List.dropWhile_eq_nil_iff.mp ht)
    rw [readAll_of_blank_append hblank] at h'
    exact absurd h' (readAll_separator hsep rest)
  | case2 t ht pair behind hscan _ ih =>
    rw [readAll_eq, if_neg ht, hscan] at h
    obtain ⟨pairs, hbehind, rfl⟩ := map_eq_ok.mp h
    obtain ⟨lead, word, rfl, hlead, hword, hends⟩ := exists_spells_of_scan? hscan
    rw [List.append_assoc, List.append_assoc, readAll_of_blank_append hlead] at h'
    cases behind with
    | cons c behind =>
      have hends : endsHere (c :: behind ++ sep :: rest) = true := hends
      rw [readAll_spells_append hword hends] at h'
      obtain ⟨pairs', hbehind', rfl⟩ := map_eq_ok.mp h'
      obtain ⟨init, key, value, value', more, rfl, rfl, hne⟩ := ih hbehind hbehind'
      exact ⟨pair :: init, key, value, value', more, rfl, rfl, hne⟩
    | nil =>
      obtain ⟨value, more, rfl, hne⟩ := readAll_spells_separator hsep hword h'
      rw [readAll_of_lists (lists_nil rfl), Except.ok.injEq] at hbehind
      subst hbehind
      exact ⟨[], pair.key, pair.value, value, more, rfl, rfl, hne⟩
  | case3 t ht hscan =>
    rw [readAll_eq, if_neg ht, hscan] at h
    exact absurd h fail_ne_ok

/-- Groups with a comma between them are read one after the other exactly if no quote is open before
the comma. -/
theorem readGroups_append_comma_iff {s t : Text} {groups groups' : List (List OptionPair)}
    (hs : s.isBlankText = false) (ht : t.isBlankText = false) (h : readGroups s = .ok groups)
    (h' : readGroups t = .ok groups') :
    readGroups (s ++ ',' :: t) = .ok (groups ++ groups') ↔ Even (s.count '\'') := by
  have hblank : Text.isBlankText (s ++ ',' :: t) = false := Text.isBlankText_append hs _
  have hquote := Text.separates_comma.quote
  rw [readGroups_eq_ok hblank, ← Text.endsQuoted_eq_false_iff]
  rw [readGroups_eq_ok hs] at h
  rw [readGroups_eq_ok ht] at h'
  constructor
  · intro hall
    by_contra hopen
    obtain ⟨init, last, rest, parts, hsplit, -, happend⟩ :=
      Text.exists_splitUnquoted_append_cons hquote (fun hcut => hopen hcut.2) t
    rw [hsplit] at h
    rw [happend] at hall
    obtain ⟨pairs, hlast, hnext⟩ := exists_common_of_forall₂ h hall
    obtain ⟨front, key, value, value', more, rfl, heq, hne⟩ :=
      exists_other_value Text.separates_comma hlast.2 hnext.2
    obtain ⟨hpair, -⟩ := List.cons.inj (List.append_cancel_left heq)
    exact hne (congrArg OptionPair.value hpair).symm
  · intro hclosed
    rw [Text.splitUnquoted_append_cons hquote hclosed]
    exact List.rel_append h h'

/-- The options of groups, each read of its part of the text. -/
theorem forall₂_of_readGroups {t : Text} {groups : List (List OptionPair)}
    {options : List ParamOptions} (ht : t.isBlankText = false) (h : readGroups t = .ok groups)
    (hoptions : groups.mapM ParamOptions.ofPairs = .ok options) :
    List.Forall₂ (fun group o => ∃ pairs, readAll group = .ok pairs ∧
      ParamOptions.ofPairs pairs = .ok o) (t.splitUnquoted ',') options :=
  forall₂_trans (fun _ pairs _ hpairs ho => ⟨pairs, hpairs.2, ho⟩) ((readGroups_eq_ok ht).mp h)
    (mapM_eq_ok.mp hoptions)

/-- Groups that a semicolon goes on with give other options: they differ in the last one. -/
theorem readGroups_append_semicolon {t rest : Text} {groups groups' : List (List OptionPair)}
    {options : List ParamOptions} (ht : t.isBlankText = false) (h : readGroups t = .ok groups)
    (hoptions : groups.mapM ParamOptions.ofPairs = .ok options)
    (h' : readGroups (t ++ ';' :: rest) = .ok groups') :
    groups'.mapM ParamOptions.ofPairs ≠ .ok options := by
  intro hoptions'
  have hall := forall₂_of_readGroups ht h hoptions
  have hall' := forall₂_of_readGroups (Text.isBlankText_append ht _) h' hoptions'
  have hcut : ¬(';' = ',' ∧ Text.endsQuoted false t = false) := fun hcut =>
    absurd hcut.1 (by decide)
  obtain ⟨init, last, behind, parts, hsplit, -, happend⟩ :=
    Text.exists_splitUnquoted_append_cons Text.separates_comma.quote hcut rest
  rw [hsplit] at hall
  rw [happend, ← List.append_nil options] at hall'
  obtain ⟨o, ⟨pairs, hpairs, ho⟩, pairs', hpairs', ho'⟩ := exists_common_of_forall₂ hall hall'
  obtain ⟨front, key, value, value', more, rfl, rfl, hne⟩ :=
    exists_other_value Text.separates_semicolon hpairs hpairs'
  -- a key gives the options one value only
  have hvalue := ParamOptions.given_of_ofPairs ho ⟨key, value⟩ (by simp)
  have hvalue' := ParamOptions.given_of_ofPairs ho' ⟨key, value'⟩ (by simp)
  exact hne (Option.some.inj (hvalue'.symm.trans hvalue))

end OptionPair

namespace ArgumentClause

/-- A clause with a quote open at its end is another one if a semicolon goes on with it. -/
theorem read_append_semicolon {clause : Text} {c : ArgumentClause}
    (hopen : Text.endsQuoted false clause = true) (h : read clause = .ok c) (rest : Text) :
    read (clause ++ ';' :: rest) ≠ .ok c := by
  intro h'
  have hsep := Text.separates_semicolon
  obtain ⟨t, groups, hsplit, hgroups, hoptions⟩ := read_eq_ok.mp h
  obtain ⟨t', groups', hsplit', hgroups', hoptions'⟩ := read_eq_ok.mp h'
  obtain ⟨hname, lead, hlead, ⟨trail, htrail, rfl, -⟩ | ⟨b, behind, hb, rfl, htrim⟩⟩ :=
    exists_named_of_splitClause hsplit
  · -- no quote stands in a name
    rw [(passes_named hsep hname hlead htrail).2] at hopen
    cases hopen
  · have hgap : Text.isBlankText [b] = true := by simpa [Text.isBlankText] using hb
    have hsplice : lead ++ c.argument.toList ++ b :: behind =
        lead ++ c.argument.toList ++ [b] ++ behind := by simp
    rw [hsplice, Text.endsQuoted_append, (passes_named hsep hname hlead hgap).2] at hopen
    have hblank : behind.isBlankText = false := by
      refine Bool.eq_false_iff.mpr fun hblank => ?_
      rw [(Text.passes_of_blank hsep hblank).2] at hopen
      cases hopen
    obtain ⟨t'', hsplit'', htrim'⟩ :=
      splitClause_named hname hlead hgap (List.cons_ne_nil b []) (behind ++ ';' :: rest)
    rw [List.append_assoc, List.cons_append, ← List.singleton_append, hsplit''] at hsplit'
    obtain rfl : t'' = t' := (Prod.mk.inj (Except.ok.inj hsplit')).2
    rw [← OptionPair.readGroups_trim, htrim, OptionPair.readGroups_trim] at hgroups
    rw [← OptionPair.readGroups_trim, htrim', OptionPair.readGroups_trim] at hgroups'
    exact OptionPair.readGroups_append_semicolon hblank hgroups hoptions hgroups' hoptions'

/-- Clauses with a semicolon between them are read one after the other exactly if no quote is open
before the semicolon. -/
theorem readAll_append_semicolon_iff {s s' : String} {cs cs' : List ArgumentClause}
    (h : readAll s = .ok cs) (h' : readAll s' = .ok cs') :
    readAll (s ++ ";" ++ s') = .ok (cs ++ cs') ↔ Even (s.toList.count '\'') := by
  have hquote := Text.separates_semicolon.quote
  have hlist : (s ++ ";" ++ s').toList = s.toList ++ ';' :: s'.toList := by simp
  rw [readAll_eq_ok, hlist, ← Text.endsQuoted_eq_false_iff]
  rw [readAll_eq_ok] at h h'
  constructor
  · intro hall
    by_contra hopen
    obtain ⟨init, last, rest, parts, hsplit, hquotes, happend⟩ :=
      Text.exists_splitUnquoted_append_cons hquote (fun hcut => hopen hcut.2) s'.toList
    rw [hsplit] at h
    rw [happend] at hall
    obtain ⟨c, hlast, hnext⟩ := exists_common_of_forall₂ h hall
    exact read_append_semicolon (hquotes.trans (by simpa using hopen)) hlast rest hnext
  · intro hclosed
    rw [Text.splitUnquoted_append_cons hquote hclosed]
    exact List.rel_append h h'

end ArgumentClause

/-- Texts with a separator between them are read one after the other exactly if the first one has an
even number of quotes: clauses with a semicolon between them, and groups with a comma. -/
theorem separated_texts_read_iff (s s' : String) (t t' : Text) :
    (∀ cs cs', ArgumentClause.readAll s = .ok cs → ArgumentClause.readAll s' = .ok cs' →
      (ArgumentClause.readAll (s ++ ";" ++ s') = .ok (cs ++ cs') ↔ Even (s.toList.count '\''))) ∧
    (∀ groups groups', t.isBlankText = false → t'.isBlankText = false →
      OptionPair.readGroups t = .ok groups → OptionPair.readGroups t' = .ok groups' →
      (OptionPair.readGroups (t ++ ',' :: t') = .ok (groups ++ groups') ↔
        Even (t.count '\''))) :=
  ⟨fun _ _ => ArgumentClause.readAll_append_semicolon_iff,
    fun _ _ => OptionPair.readGroups_append_comma_iff⟩

/-- Quotes around a value are closed before what follows. -/
theorem separated_texts_read_of_quoted :
    ArgumentClause.readAll "id name='a;b';page" =
      .ok [⟨"id", [{ name := some "a;b" }]⟩, ⟨"page", []⟩] ∧
    OptionPair.readGroups "name='a,b',in=query".toList =
      .ok [[⟨"name", "a,b"⟩], [⟨"in", "query"⟩]] := by
  obtain ⟨hclauses, hgroups⟩ := separated_texts_read_iff "id name='a;b'" "page"
    "name='a,b'".toList "in=query".toList
  exact ⟨(hclauses [_] [_] (by decide +kernel) (by decide +kernel)).mpr (by decide),
    (hgroups [_] [_] (by decide) (by decide) (by decide +kernel) (by decide +kernel)).mpr
      (by decide)⟩

/-- A quote in a value closes nothing, and what follows is read as part of the value. -/
theorem separator_read_as_value :
    ArgumentClause.readAll "id name=it's" = .ok [⟨"id", [{ name := some "it's" }]⟩] ∧
    ArgumentClause.readAll "page" = .ok [⟨"page", []⟩] ∧
    ArgumentClause.readAll "id name=it's;page" =
      .ok [⟨"id", [{ name := some "it's;page" }]⟩] ∧
    OptionPair.readGroups "name=it's".toList = .ok [[⟨"name", "it's"⟩]] ∧
    OptionPair.readGroups "in=query".toList = .ok [[⟨"in", "query"⟩]] ∧
    OptionPair.readGroups "name=it's,in=query".toList =
      .ok [[⟨"name", "it's,in=query"⟩]] := by
  decide +kernel

end Routespec
