import Routespec.Proofs.ArgumentSpacing
import Routespec.Proofs.Checked
import Routespec.Text.Runs

/-!
# What is a text of options

A text of options is made of pairs with white space between them. Exactly those texts are read. In
any other one, what stands before the first token that is no pair is such a text, and the fault
holds the rest of it.
-/

namespace Routespec

namespace Text

section Scans

variable {t rest : Text}

/-- An identifier is read up to the first character that does not continue it. -/
theorem spanIdentifier_append_of_isIdentifier (ht : t.isIdentifier = true)
    (hrest : ∀ c ∈ rest.head?, isIdentifierPart c = false) :
    spanIdentifier (t ++ rest) = (t, rest) := by
  cases t with
  | nil => cases ht
  | cons c t =>
    rw [isIdentifier, Bool.and_eq_true, List.all_eq_true] at ht
    rw [List.cons_append, spanIdentifier, if_pos ht.1, takeWhile_exact ht.2 hrest,
      dropWhile_exact ht.2 hrest]

theorem isIdentifier_of_spanIdentifier {c : Char} {key : Text}
    (h : t.spanIdentifier = (c :: key, rest)) : isIdentifier (c :: key) = true := by
  cases t with
  | nil => cases h
  | cons d t =>
    rw [spanIdentifier] at h
    split at h
    · next hd =>
      obtain ⟨hkey, -⟩ := Prod.mk.inj h
      obtain ⟨rfl, rfl⟩ := List.cons.inj hkey
      rw [isIdentifier, hd, Bool.true_and]
      exact List.all_takeWhile
    · obtain ⟨hkey, -⟩ := Prod.mk.inj h
      cases hkey

end Scans

/-- Words with white space between each two of them, and none around. -/
inductive Spaced : Text → List Text → Prop
  | none : Spaced [] []
  | one (word : Text) : Spaced word [word]
  | cons (word : Text) {gap t next : Text} {words : List Text} (hgap : gap.isBlankText = true)
    (hne : gap ≠ []) (h : Spaced t (next :: words)) :
    Spaced (word ++ gap ++ t) (word :: next :: words)

end Text

namespace OptionPair

/-- The text is a value as written: in quotes, or bare. -/
inductive SpellsValue : Text → Text → Prop
  | quoted {v : Text} (hv : '\'' ∉ v) : SpellsValue ('\'' :: (v ++ ['\''])) v
  | bare {c : Char} {v : Text} (hstart : c ≠ '\'') (hsolid : ∀ d ∈ c :: v, isBlank d = false) :
    SpellsValue (c :: v) (c :: v)

/-- The text is the pair as written: its key, an equals sign and its value. -/
def Spells (t : Text) (pair : OptionPair) : Prop :=
  isIdentifier pair.key = true ∧
    ∃ value, SpellsValue value pair.value.toList ∧ t = pair.key.toList ++ '=' :: value

/-- The text is the pairs as written, with white space between them and perhaps around them. -/
def Lists (t : Text) (pairs : List OptionPair) : Prop :=
  ∃ lead body trail words, lead.isBlankText = true ∧ trail.isBlankText = true ∧
    t = lead ++ body ++ trail ∧ Text.Spaced body words ∧ List.Forall₂ Spells words pairs

/-- The text `rest` is what is no list of pairs in `t`, from the first token that is no pair on. -/
structure IsUnmatched (t rest : Text) : Prop where
  /-- What stands before it is a list of pairs, and ends with white space if with anything. -/
  behind : ∃ before pairs, t = before ++ rest ∧ Lists before pairs ∧
    ∀ c ∈ before.getLast?, isBlank c = true
  token : ∃ c tail, rest = c :: tail ∧ isBlank c = false
  /-- It does not start with a pair that is followed by white space or by nothing. -/
  noPair : ∀ word tail pair, rest.trimRight = word ++ tail → Spells word pair →
    endsHere tail = false

section Scanning

variable {t rest : Text} {pair : OptionPair}

theorem endsHere_iff : endsHere t = true ↔ ∀ c ∈ t.head?, isBlank c = true := by
  cases t <;> simp [endsHere]

theorem scanValue?_eq_some {v : Text} : scanValue? t = some (v, rest) ↔
    ∃ value, SpellsValue value v ∧ t = value ++ rest ∧ endsHere rest = true := by
  constructor
  · intro h
    cases t with
    | nil => cases h
    | cons c t =>
      rw [scanValue?] at h
      split at h
      · next hc =>
        obtain ⟨hcut, hends⟩ := Option.filter_eq_some_iff.mp h
        obtain ⟨d, hv, hd, rfl⟩ := Text.cutAt?_eq_some.mp hcut
        rw [decide_eq_true_eq] at hd
        refine ⟨_, .quoted fun hmem => by simpa using hv _ hmem, ?_, hends⟩
        simp [hc, hd]
      · next hc =>
        split at h
        · cases h
        · next hblank =>
          obtain ⟨rfl, rfl⟩ := Prod.mk.inj (Option.some.inj h)
          refine ⟨_, .bare hc (List.forall_mem_cons.mpr ⟨by simpa using hblank, ?_⟩), ?_, ?_⟩
          · simpa using List.all_eq_true.mp (List.all_takeWhile (p := (!isBlank ·)) (l := t))
          · rw [List.cons_append, List.takeWhile_append_dropWhile]
          · rw [endsHere_iff]
            simpa using Text.head?_dropWhile (!isBlank ·) t
  · rintro ⟨value, hvalue, rfl, hends⟩
    cases hvalue with
    | quoted hv =>
      have hcut : Text.cutAt? (· = '\'') (v ++ '\'' :: rest) = some (v, rest) :=
        Text.cutAt?_append_cons (fun c hc => by simpa using ne_of_mem_of_not_mem hc hv)
          (by simp) rest
      rw [List.cons_append, scanValue?, if_pos rfl, List.append_assoc, List.singleton_append, hcut]
      exact Option.filter_some_pos hends
    | @bare c v hstart hsolid =>
      rw [List.forall_mem_cons] at hsolid
      have hsolid' : ∀ d ∈ v, (!isBlank d) = true := by simpa using hsolid.2
      have hrest : ∀ d ∈ rest.head?, (!isBlank d) = false := by
        simpa using endsHere_iff.mp hends
      rw [List.cons_append, scanValue?, if_neg hstart, if_neg (by simp [hsolid.1]),
        Text.takeWhile_exact hsolid' hrest, Text.dropWhile_exact hsolid' hrest]

/-- Behind a key, the pair is read as its value is. -/
theorem scan?_key {key : String} (hkey : isIdentifier key = true) (value : Text) :
    scan? (key.toList ++ '=' :: value) =
      (scanValue? value).map fun found => (⟨key, String.ofList found.1⟩, found.2) := by
  have hspan : Text.spanIdentifier (key.toList ++ '=' :: value) = (key.toList, '=' :: value) :=
    Text.spanIdentifier_append_of_isIdentifier hkey (by simp; decide)
  unfold scan?
  rw [hspan]
  rw [isIdentifier] at hkey
  have hback : String.ofList key.toList = key := String.ofList_toList
  cases hlist : key.toList with
  | nil =>
    rw [hlist] at hkey
    cases hkey
  | cons c rest =>
    rw [hlist] at hback
    simp only [hback]

theorem scan?_eq_some : scan? t = some (pair, rest) ↔
    ∃ word, Spells word pair ∧ t = word ++ rest ∧ endsHere rest = true := by
  constructor
  · intro h
    unfold scan? at h
    split at h
    · next c key value hspan =>
      obtain ⟨⟨v, r⟩, hv, heq⟩ := Option.map_eq_some_iff.mp h
      obtain ⟨rfl, rfl⟩ := Prod.mk.inj heq
      obtain ⟨value, hvalue, rfl, hends⟩ := scanValue?_eq_some.mp hv
      have ht := Text.spanIdentifier_append t
      rw [hspan] at ht
      have hkey := Text.isIdentifier_of_spanIdentifier hspan
      refine ⟨c :: key ++ '=' :: value, ⟨?_, value, ?_, ?_⟩, ?_, hends⟩
      · rwa [isIdentifier, String.toList_ofList]
      · rwa [String.toList_ofList]
      · rw [String.toList_ofList]
      · simpa using ht.symm
    · cases h
  · rintro ⟨word, ⟨hkey, value, hvalue, rfl⟩, rfl, hends⟩
    have hv : scanValue? (value ++ rest) = some (pair.value.toList, rest) :=
      scanValue?_eq_some.mpr ⟨value, hvalue, rfl, hends⟩
    rw [List.append_assoc, List.cons_append, scan?_key hkey, hv, Option.map_some,
      String.ofList_toList]

/-- What is read first of a text is a pair behind white space. -/
theorem exists_spells_of_scan? (h : scan? t.trimLeft = some (pair, rest)) :
    ∃ lead word, t = lead ++ word ++ rest ∧ lead.isBlankText = true ∧ Spells word pair ∧
      endsHere rest = true := by
  obtain ⟨word, hword, htrim, hends⟩ := scan?_eq_some.mp h
  refine ⟨t.takeWhile isBlank, word, ?_, List.all_takeWhile, hword, hends⟩
  rw [List.append_assoc, ← htrim]
  exact List.takeWhile_append_dropWhile.symm

end Scanning

section Words

variable {word : Text} {pair : OptionPair}

/-- A pair as written starts with something solid. -/
theorem Spells.head (h : Spells word pair) : ∃ c tail, word = c :: tail ∧ isBlank c = false := by
  obtain ⟨hkey, value, -, rfl⟩ := h
  obtain ⟨hne, hsolid⟩ := Text.solid_of_isIdentifier hkey
  obtain ⟨c, key, hcons⟩ := List.exists_cons_of_ne_nil hne
  rw [hcons] at hsolid ⊢
  exact ⟨c, _, rfl, hsolid c List.mem_cons_self⟩

/-- A pair as written ends with something solid. -/
theorem Spells.last (h : Spells word pair) : ∃ init c, word = init ++ [c] ∧ isBlank c = false := by
  obtain ⟨-, value, hvalue, rfl⟩ := h
  suffices hlast : ∃ init c, value = init ++ [c] ∧ isBlank c = false by
    obtain ⟨init, c, rfl, hc⟩ := hlast
    exact ⟨pair.key.toList ++ '=' :: init, c, by simp, hc⟩
  generalize pair.value.toList = v at hvalue
  cases hvalue with
  | quoted hv => exact ⟨'\'' :: v, '\'', rfl, by decide⟩
  | @bare c v hstart hsolid =>
    have hne : c :: v ≠ [] := by simp
    exact ⟨_, _, (List.dropLast_concat_getLast hne).symm, hsolid _ (List.getLast_mem hne)⟩

theorem head_of_spaced {body next : Text} {words : List Text} {pairs : List OptionPair}
    (h : Text.Spaced body (next :: words)) (hpairs : List.Forall₂ Spells (next :: words) pairs) :
    ∃ c tail, body = c :: tail ∧ isBlank c = false := by
  obtain ⟨pair, _, hnext, -, -⟩ := List.forall₂_cons_left_iff.mp hpairs
  obtain ⟨c, tail, rfl, hc⟩ := hnext.head
  cases h with
  | one => exact ⟨c, tail, rfl, hc⟩
  | cons => exact ⟨c, _, rfl, hc⟩

theorem last_of_spaced {body : Text} {words : List Text} {pairs : List OptionPair}
    (h : Text.Spaced body words) (hpairs : List.Forall₂ Spells words pairs) :
    words = [] ∨ ∃ init c, body = init ++ [c] ∧ isBlank c = false := by
  induction h generalizing pairs with
  | none => exact .inl rfl
  | one word =>
    obtain ⟨pair, _, hword, -, -⟩ := List.forall₂_cons_left_iff.mp hpairs
    exact .inr hword.last
  | @cons word gap t next words hgap hne h ih =>
    obtain ⟨pair, pairs, -, hrest, -⟩ := List.forall₂_cons_left_iff.mp hpairs
    obtain hnil | ⟨init, c, rfl, hc⟩ := ih hrest
    · cases hnil
    · exact .inr ⟨word ++ gap ++ init, c, by rw [List.append_assoc _ init], hc⟩

end Words

section Reading

variable {t rest lead word : Text} {pair : OptionPair} {pairs : List OptionPair}

theorem readAll_of_blank_append (hlead : lead.isBlankText = true) (t : Text) :
    readAll (lead ++ t) = readAll t := by
  rw [readAll_eq, readAll_eq t, Text.trimLeft_of_blank_append hlead]

/-- Where no white space stands first, the pair that is read stands there. -/
theorem readAll_of_solid {c : Char} (hc : isBlank c = false) (t : Text) :
    readAll (c :: t) = match scan? (c :: t) with
      | some (pair, rest) => (readAll rest).map (pair :: ·)
      | none => fail (.unmatchedOptions (String.ofList (Text.trimRight (c :: t)))) := by
  have htrim : Text.trimLeft (c :: t) = c :: t := List.dropWhile_cons_of_neg (by simp [hc])
  have hread := readAll_eq (c :: t)
  rw [htrim, if_neg (List.cons_ne_nil c t)] at hread
  exact hread

theorem Spells.readAll_append (h : Spells word pair) (t : Text) :
    readAll (word ++ t) = match scan? (word ++ t) with
      | some (pair, rest) => (readAll rest).map (pair :: ·)
      | none => fail (.unmatchedOptions (String.ofList (Text.trimRight (word ++ t)))) := by
  obtain ⟨c, tail, rfl, hc⟩ := h.head
  exact readAll_of_solid hc (tail ++ t)

/-- A pair that is followed by white space or nothing is read first. -/
theorem readAll_spells_append (h : Spells word pair) (hends : endsHere rest = true) :
    readAll (word ++ rest) = (readAll rest).map (pair :: ·) := by
  have hscan : scan? (word ++ rest) = some (pair, rest) :=
    scan?_eq_some.mpr ⟨word, h, rfl, hends⟩
  rw [h.readAll_append, hscan]

theorem readAll_spaced_append {body : Text} {words : List Text} (h : Text.Spaced body words)
    (hpairs : List.Forall₂ Spells words pairs) (hends : endsHere rest = true) :
    readAll (body ++ rest) = (readAll rest).map (pairs ++ ·) := by
  induction h generalizing pairs with
  | none =>
    cases hpairs
    exact (map_nil_append _).symm
  | one word =>
    obtain ⟨pair, _, hword, hnil, rfl⟩ := List.forall₂_cons_left_iff.mp hpairs
    cases hnil
    exact readAll_spells_append hword hends
  | @cons word gap t next words hgap hne h ih =>
    obtain ⟨pair, pairs, hword, hrest, rfl⟩ := List.forall₂_cons_left_iff.mp hpairs
    have hgapEnds : endsHere (gap ++ (t ++ rest)) = true := by
      obtain ⟨c, tail, rfl⟩ := List.exists_cons_of_ne_nil hne
      exact List.all_eq_true.mp hgap c List.mem_cons_self
    rw [List.append_assoc, List.append_assoc, readAll_spells_append hword hgapEnds,
      readAll_of_blank_append hgap, ih hrest]
    cases readAll rest <;> rfl

/-- Listed pairs are read, and then what follows the white space behind them. -/
theorem Lists.readAll_append {before : Text} (h : Lists before pairs)
    (hlast : ∀ c ∈ before.getLast?, isBlank c = true) (rest : Text) :
    readAll (before ++ rest) = (readAll rest).map (pairs ++ ·) := by
  obtain ⟨lead, body, trail, words, hlead, htrail, rfl, hspaced, hpairs⟩ := h
  rw [List.append_assoc, List.append_assoc, readAll_of_blank_append hlead]
  cases trail with
  | cons c trail =>
    have hends : endsHere (c :: trail ++ rest) = true :=
      List.all_eq_true.mp htrail c List.mem_cons_self
    rw [readAll_spaced_append hspaced hpairs hends, readAll_of_blank_append htrail]
  | nil =>
    obtain rfl | ⟨init, c, rfl, hc⟩ := last_of_spaced hspaced hpairs
    · cases hspaced
      cases hpairs
      exact (map_nil_append _).symm
    · -- a list that ends with a pair does not end with white space
      rw [hlast c (by simp)] at hc
      cases hc

/-- A list of pairs is read as the pairs. -/
theorem readAll_of_lists (h : Lists t pairs) : readAll t = .ok pairs := by
  obtain ⟨lead, body, trail, words, hlead, htrail, rfl, hspaced, hpairs⟩ := h
  have hnil : readAll [] = .ok [] := by rw [readAll_eq]; rfl
  have hbody : readAll (body ++ []) = _ := readAll_spaced_append hspaced hpairs rfl
  rw [List.append_nil, hnil, Except.map, List.append_nil] at hbody
  rw [OptionPair.readAll_append htrail, readAll_of_blank_append hlead, hbody]

theorem lists_nil (ht : t.isBlankText = true) : Lists t [] :=
  ⟨[], [], t, [], rfl, ht, rfl, .none, .nil⟩

/-- A pair in front of a list of pairs, with white space between. -/
theorem Lists.cons (hlead : lead.isBlankText = true) (hword : Spells word pair)
    (hends : endsHere rest = true) (h : Lists rest pairs) :
    Lists (lead ++ word ++ rest) (pair :: pairs) := by
  obtain ⟨gap, body, trail, words, hgap, htrail, rfl, hspaced, hpairs⟩ := h
  cases words with
  | nil =>
    cases hspaced
    cases hpairs
    refine ⟨lead, word, gap ++ [] ++ trail, [word], hlead, ?_, rfl, .one word, .cons hword .nil⟩
    rw [List.append_nil, Text.isBlankText, List.all_append, Bool.and_eq_true]
    exact ⟨hgap, htrail⟩
  | cons next words =>
    have hne : gap ≠ [] := by
      rintro rfl
      obtain ⟨c, tail, rfl, hc⟩ := head_of_spaced hspaced hpairs
      exact absurd hends (by simp [endsHere, hc])
    exact ⟨lead, word ++ gap ++ body, trail, word :: next :: words, hlead, htrail, by simp,
      .cons word hgap hne hspaced, .cons hword hpairs⟩

/-- What is read is a list of pairs. -/
theorem lists_of_readAll (h : readAll t = .ok pairs) : Lists t pairs := by
  induction t using readAll.induct generalizing pairs with
  | case1 t ht =>
    rw [readAll_eq, if_pos ht, Except.ok.injEq] at h
    exact h ▸ lists_nil (List.all_eq_true.mpr (List.dropWhile_eq_nil_iff.mp ht))
  | case2 t ht pair rest hscan _ ih =>
    rw [readAll_eq, if_neg ht, hscan] at h
    obtain ⟨pairs, hrest, rfl⟩ := map_eq_ok.mp h
    obtain ⟨lead, word, rfl, hlead, hword, hends⟩ := exists_spells_of_scan? hscan
    exact .cons hlead hword hends (ih hrest)
  | case3 t ht hscan =>
    rw [readAll_eq, if_neg ht, hscan] at h
    exact absurd h fail_ne_ok

theorem IsUnmatched.cons {r : Text} (hlead : lead.isBlankText = true) (hword : Spells word pair)
    (hends : endsHere rest = true) (h : IsUnmatched rest r) :
    IsUnmatched (lead ++ word ++ rest) r := by
  obtain ⟨⟨before, pairs, rfl, hbefore, hlast⟩, ⟨c, tail, rfl, hc⟩, hno⟩ := h
  cases before with
  | nil =>
    -- the token would follow the pair at once
    rw [List.nil_append, endsHere, hc] at hends
    cases hends
  | cons d before =>
    refine ⟨⟨lead ++ word ++ d :: before, pair :: pairs, by simp, .cons hlead hword hends hbefore,
      ?_⟩, ⟨c, tail, rfl, hc⟩, hno⟩
    rwa [List.getLast?_append_of_ne_nil _ (List.cons_ne_nil d before)]

/-- Reading stops only in front of what is unmatched. -/
theorem exists_isUnmatched_of_readAll {f : Fault} (h : readAll t = .error f) :
    ∃ rest, IsUnmatched t rest ∧
      f = (Cause.unmatchedOptions (String.ofList rest.trimRight)).fault := by
  induction t using readAll.induct with
  | case1 t ht =>
    rw [readAll_eq, if_pos ht] at h
    cases h
  | case2 t ht pair rest hscan _ ih =>
    rw [readAll_eq, if_neg ht, hscan] at h
    obtain ⟨r, hr, hf⟩ := ih (map_eq_error.mp h)
    obtain ⟨lead, word, rfl, hlead, hword, hends⟩ := exists_spells_of_scan? hscan
    exact ⟨r, hr.cons hlead hword hends, hf⟩
  | case3 t ht hscan =>
    rw [readAll_eq, if_neg ht, hscan, fail, Except.error.injEq] at h
    have hlead : Text.isBlankText (t.takeWhile isBlank) = true := List.all_takeWhile
    have hsplit : t = t.takeWhile isBlank ++ t.trimLeft := List.takeWhile_append_dropWhile.symm
    refine ⟨t.trimLeft, ⟨⟨_, [], hsplit, lists_nil hlead, fun c hc => ?_⟩, ?_, ?_⟩, h.symm⟩
    · exact List.all_eq_true.mp hlead c (List.mem_of_getLast? hc)
    · obtain ⟨c, tail, hcons⟩ := List.exists_cons_of_ne_nil ht
      refine ⟨c, tail, hcons, Text.head?_dropWhile isBlank t c ?_⟩
      change t.trimLeft.head? = some c
      rw [hcons, List.head?_cons]
    · -- a pair in front of the trimmed text would be read off the text itself
      intro word tail pair hword hspells
      obtain ⟨r, hr, htrim⟩ := Text.exists_eq_trimRight_append t.trimLeft
      rw [hword, List.append_assoc] at htrim
      refine Bool.eq_false_iff.mpr fun hends => ?_
      rw [← endsHere_append hr] at hends
      have hfound := scan?_eq_some.mpr ⟨word, hspells, htrim, hends⟩
      rw [hscan] at hfound
      cases hfound

/-- Reading stops in front of what is unmatched. -/
theorem readAll_of_isUnmatched {r : Text} (h : IsUnmatched t r) :
    readAll t = fail (.unmatchedOptions (String.ofList r.trimRight)) := by
  obtain ⟨⟨before, pairs, rfl, hbefore, hlast⟩, ⟨c, tail, rfl, hc⟩, hno⟩ := h
  have hscan : scan? (c :: tail) = none := by
    refine Option.eq_none_iff_forall_ne_some.mpr fun ⟨pair, rest⟩ hfound => ?_
    obtain ⟨word, hword, hsplit, hends⟩ := scan?_eq_some.mp hfound
    obtain ⟨init, d, rfl, hd⟩ := hword.last
    obtain ⟨blanks, hblanks, hrest⟩ := Text.exists_eq_trimRight_append rest
    have hprefix : Text.trimRight (c :: tail) = init ++ [d] ++ rest.trimRight := by
      rw [hsplit, List.append_assoc, List.append_assoc, List.singleton_append,
        Text.trimRight_append_cons_of_solid init hd, List.singleton_append]
    rw [hrest, endsHere_append hblanks, hno _ _ pair hprefix hword] at hends
    cases hends
  rw [hbefore.readAll_append hlast, readAll_of_solid hc, hscan]
  rfl

/-- Reading options gives the pairs exactly of a list of pairs. In every other text it stops in
front of what is unmatched, which is malformed. -/
theorem readAll_outcome (t : Text) :
    (∀ pairs, readAll t = .ok pairs ↔ Lists t pairs) ∧
    (∀ f, readAll t = .error f ↔ ∃ rest, IsUnmatched t rest ∧
      f = (Cause.unmatchedOptions (String.ofList rest.trimRight)).fault) ∧
    ∀ f, readAll t = .error f → f.kind = .syntaxError := by
  refine ⟨fun pairs => ⟨lists_of_readAll, readAll_of_lists⟩,
    fun f => ⟨exists_isUnmatched_of_readAll, ?_⟩, fun f hf => ?_⟩
  · rintro ⟨rest, hrest, rfl⟩
    exact readAll_of_isUnmatched hrest
  · obtain ⟨rest, -, rfl⟩ := exists_isUnmatched_of_readAll hf
    rfl

/-- A quote that nothing follows but another character is no closing one. -/
example : readAll " name='a b' in='path'x ".toList =
    fail (.unmatchedOptions "in='path'x") := by
  decide +kernel

end Reading

end OptionPair

end Routespec
