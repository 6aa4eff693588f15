import Routespec.Proofs.Clauses
import Routespec.Proofs.OptionGrammar
import Routespec.Proofs.OptionRecords
import Routespec.Proofs.UnquotedParts
import Routespec.Rule.Body

/-!
# Options written back

Options are written as pairs with their values in quotes: pairs behind white space, groups behind
commas, clauses behind semicolons. Whatever stands in a value, but for a quote, the text is read as
the options that it was written from, as arguments of a `param` directive and, where each argument
has one group without a location, of a `body` directive.
-/

namespace Routespec

namespace OptionPair

/-- The pair with its value in quotes. -/
def quoted (pair : OptionPair) : Text :=
  pair.key.toList ++ '=' :: '\'' :: (pair.value.toList ++ ['\''])

theorem spells_quoted {pair : OptionPair} (hkey : isIdentifier pair.key = true)
    (hvalue : '\'' ∉ pair.value.toList) : Spells pair.quoted pair :=
  ⟨hkey, _, .quoted hvalue, rfl⟩

end OptionPair

namespace ParamOptions

/-- The text is the options that are set, each in quotes, in any order and with white space between
them and perhaps around them. -/
def WrittenAs (o : ParamOptions) (t : Text) : Prop :=
  ∃ (ps : List OptionPair) (lead body trail : Text), ps.Perm o.pairs ∧
    lead.isBlankText = true ∧ trail.isBlankText = true ∧ t = lead ++ body ++ trail ∧
    Text.Spaced body (ps.map (·.quoted))

/-- The options in the order of their keys, with a space between them. -/
def written (o : ParamOptions) : Text := [' '].intercalate (o.pairs.map (·.quoted))

/-- The options can be written: some are set, none asks for the body or holds a quote. -/
structure IsWritable (o : ParamOptions) : Prop where
  nonempty : o.isEmpty = false
  leaveBody : o.LeaveBody
  unquoted : ∀ pair ∈ o.pairs, '\'' ∉ pair.value.toList

instance (o : ParamOptions) : Decidable o.IsWritable :=
  decidable_of_iff
    (o.isEmpty = false ∧ o.location ≠ some .body ∧ ∀ pair ∈ o.pairs, '\'' ∉ pair.value.toList)
    ⟨fun h => ⟨h.1, h.2.1, h.2.2⟩, fun h => ⟨h.nonempty, h.leaveBody, h.unquoted⟩⟩

end ParamOptions

namespace ArgumentClause

/-- The text is the clause: its argument and, behind white space, its groups. -/
inductive WrittenAs : ArgumentClause → Text → Prop
  | bare (argument : String) (lead trail : Text) (hlead : lead.isBlankText = true)
    (htrail : trail.isBlankText = true) :
    WrittenAs ⟨argument, []⟩ (lead ++ argument.toList ++ trail)
  | grouped (argument : String) (lead gap : Text) {groups : List ParamOptions} {texts : List Text}
    (hlead : lead.isBlankText = true) (hgap : gap.isBlankText = true) (hne : gap ≠ [])
    (hgroups : groups ≠ []) (htexts : List.Forall₂ ParamOptions.WrittenAs groups texts) :
    WrittenAs ⟨argument, groups⟩ (lead ++ argument.toList ++ (gap ++ [','].intercalate texts))

/-- The clause with one space behind its argument. -/
def written (c : ArgumentClause) : Text :=
  c.argument.toList ++
    if c.groups = [] then [] else ' ' :: [','].intercalate (c.groups.map (·.written))

/-- The text is these clauses with semicolons between them. -/
def AllWrittenAs (cs : List ArgumentClause) (t : Text) : Prop :=
  ∃ texts, List.Forall₂ WrittenAs cs texts ∧ t = [';'].intercalate texts

/-- The clauses one behind the other. -/
def writtenAll (cs : List ArgumentClause) : Text := [';'].intercalate (cs.map (·.written))

/-- The clause can be written: its argument is an identifier, and so can its groups. -/
structure IsWritable (c : ArgumentClause) : Prop where
  named : isIdentifier c.argument = true
  groups : ∀ o ∈ c.groups, o.IsWritable

instance (c : ArgumentClause) : Decidable c.IsWritable :=
  decidable_of_iff (isIdentifier c.argument = true ∧ ∀ o ∈ c.groups, o.IsWritable)
    ⟨fun h => ⟨h.1, h.2⟩, fun h => ⟨h.named, h.groups⟩⟩

end ArgumentClause

/-- The manipulation as a clause with one group. -/
def BodyOverlay.clause (m : BodyOverlay) : ArgumentClause := ⟨m.argument, [m.options]⟩

section Writing

theorem Text.spaced_intercalate (words : List Text) :
    Text.Spaced ([' '].intercalate words) words := by
  induction words with
  | nil => exact .none
  | cons word words ih =>
    cases words with
    | nil =>
      rw [List.intercalate_singleton]
      exact .one word
    | cons next words =>
      rw [List.intercalate_cons_cons]
      exact .cons word rfl (List.cons_ne_nil ' ' []) ih

theorem ParamOptions.writtenAs_written (o : ParamOptions) : o.WrittenAs o.written :=
  ⟨o.pairs, [], o.written, [], .refl _, rfl, rfl, by simp, Text.spaced_intercalate _⟩

theorem ArgumentClause.writtenAs_written (c : ArgumentClause) : c.WrittenAs c.written := by
  obtain ⟨argument, groups⟩ := c
  unfold written
  by_cases hgroups : groups = []
  · subst hgroups
    exact .bare argument [] [] rfl rfl
  · rw [if_neg hgroups]
    exact .grouped argument [] [' '] rfl rfl (List.cons_ne_nil ' ' []) hgroups
      (List.forall₂_map_right_iff.mpr (List.forall₂_same.mpr fun o _ => o.writtenAs_written))

theorem ArgumentClause.allWrittenAs_writtenAll (cs : List ArgumentClause) :
    AllWrittenAs cs (writtenAll cs) :=
  ⟨_, List.forall₂_map_right_iff.mpr (List.forall₂_same.mpr fun c _ => c.writtenAs_written), rfl⟩

end Writing

section Passing

variable {sep : Char} {t : Text}

open Text

theorem passes_quoted_pair (hsep : Separates sep) {pair : OptionPair}
    (hkey : isIdentifier pair.key = true) (hvalue : '\'' ∉ pair.value.toList) :
    Passes sep pair.quoted := by
  have hequals : Passes sep ['='] := passes_of_plain fun c hc => by
    rw [List.mem_singleton.mp hc]
    exact ⟨hsep.equals.symm, by decide⟩
  have hassign := hequals.append hsep.quote (passes_quoted hvalue)
  exact (passes_of_isIdentifier hsep hkey).append hsep.quote hassign

theorem passes_spaced (hsep : Separates sep) {words : List Text} (h : Spaced t words)
    (hwords : ∀ word ∈ words, Passes sep word) : Passes sep t := by
  induction h with
  | none => exact passes_of_blank hsep rfl
  | one word => exact hwords word List.mem_cons_self
  | cons word hgap _ _ ih =>
    rw [List.forall_mem_cons] at hwords
    exact (hwords.1.append hsep.quote (passes_of_blank hsep hgap)).append hsep.quote (ih hwords.2)

theorem passes_intercalate (hsep : sep ≠ '\'') {c : Char} (hc : Passes sep [c])
    {parts : List Text} (hparts : ∀ part ∈ parts, Passes sep part) :
    Passes sep ([c].intercalate parts) := by
  induction parts with
  | nil => exact passes_of_plain (by simp)
  | cons part parts ih =>
    rw [List.forall_mem_cons] at hparts
    cases parts with
    | nil =>
      rw [List.intercalate_singleton]
      exact hparts.1
    | cons next parts =>
      rw [List.intercalate_cons_cons]
      exact (hparts.1.append hsep hc).append hsep (ih hparts.2)

end Passing

namespace ParamOptions

variable {o : ParamOptions} {t : Text} {sep : Char}

theorem isIdentifier_key {pair : OptionPair} (h : pair ∈ o.pairs) :
    isIdentifier pair.key = true := by
  obtain ⟨word, hword, hpair⟩ := List.mem_filterMap.mp h
  obtain ⟨value, -, rfl⟩ := Option.map_eq_some_iff.mp hpair
  have hkeys : ∀ word ∈ keys.map (·.word), isIdentifier word = true := by decide
  exact hkeys word hword

theorem IsWritable.pairs_ne_nil (ho : o.IsWritable) : o.pairs ≠ [] := by
  intro hnil
  have hnone : o.given = ({} : ParamOptions).given := funext fun word => by
    have hempty : ({} : ParamOptions).given word = none := by
      unfold given
      split_ifs <;> rfl
    rw [hempty]
    refine Option.eq_none_iff_forall_ne_some.mpr fun value hvalue => ?_
    have hmem : (⟨word, value⟩ : OptionPair) ∈ o.pairs := mem_pairs.mpr hvalue
    rw [hnil] at hmem
    cases hmem
  have hnonempty := ho.nonempty
  rw [given_injective hnone] at hnonempty
  exact absurd hnonempty (by decide)

/-- Written options are a list of their pairs. -/
theorem IsWritable.lists (ho : o.IsWritable) (h : o.WrittenAs t) :
    ∃ ps : List OptionPair, ps.Perm o.pairs ∧ OptionPair.Lists t ps := by
  obtain ⟨ps, lead, body, trail, hperm, hlead, htrail, rfl, hspaced⟩ := h
  refine ⟨ps, hperm, lead, body, trail, _, hlead, htrail, rfl, hspaced, ?_⟩
  refine List.forall₂_map_left_iff.mpr (List.forall₂_same.mpr fun pair hpair => ?_)
  have hmem := hperm.mem_iff.mp hpair
  exact OptionPair.spells_quoted (isIdentifier_key hmem) (ho.unquoted pair hmem)

theorem IsWritable.passes (ho : o.IsWritable) (hsep : Text.Separates sep) (h : o.WrittenAs t) :
    Text.Passes sep t := by
  obtain ⟨ps, lead, body, trail, hperm, hlead, htrail, rfl, hspaced⟩ := h
  have hbody : Text.Passes sep body := passes_spaced hsep hspaced fun word hword => by
    obtain ⟨pair, hpair, rfl⟩ := List.mem_map.mp hword
    have hmem := hperm.mem_iff.mp hpair
    exact passes_quoted_pair hsep (isIdentifier_key hmem) (ho.unquoted pair hmem)
  exact ((Text.passes_of_blank hsep hlead).append hsep.quote hbody).append hsep.quote
    (Text.passes_of_blank hsep htrail)

/-- Written options are read as the pairs that they are read off. -/
theorem IsWritable.reads (ho : o.IsWritable) (h : o.WrittenAs t) :
    t.isBlankText = false ∧ ∃ ps, OptionPair.readAll t = .ok ps ∧ ofPairs ps = .ok o := by
  obtain ⟨ps, hperm, hlists⟩ := ho.lists h
  have hread := OptionPair.readAll_of_lists hlists
  refine ⟨Bool.eq_false_iff.mpr fun hblank => ?_, ps, hread, ofPairs_of_perm ho.leaveBody hperm⟩
  rw [OptionPair.readAll_of_lists (OptionPair.lists_nil hblank), Except.ok.injEq] at hread
  rw [← hread, List.nil_perm] at hperm
  exact ho.pairs_ne_nil hperm

end ParamOptions

namespace ArgumentClause

variable {c : ArgumentClause} {t : Text}

theorem exists_groups_of_writtenAs {groups : List ParamOptions} {texts : List Text}
    (h : List.Forall₂ ParamOptions.WrittenAs groups texts)
    (hwritable : ∀ o ∈ groups, o.IsWritable) :
    ∃ gs, List.Forall₂ (fun group pairs => Text.isBlankText group = false ∧
        OptionPair.readAll group = .ok pairs) texts gs ∧
      gs.mapM ParamOptions.ofPairs = .ok groups := by
  induction h with
  | nil => exact ⟨[], .nil, rfl⟩
  | cons ho _ ih =>
    rw [List.forall_mem_cons] at hwritable
    obtain ⟨hblank, ps, hread, hps⟩ := hwritable.1.reads ho
    obtain ⟨gs, hgs, hgroups⟩ := ih hwritable.2
    exact ⟨ps :: gs, .cons ⟨hblank, hread⟩ hgs,
      mapM_eq_ok.mpr (.cons hps (mapM_eq_ok.mp hgroups))⟩

/-- Written groups are read as the pairs that they are read off. -/
theorem exists_readGroups_of_writtenAs {groups : List ParamOptions} {texts : List Text}
    (hne : groups ≠ []) (h : List.Forall₂ ParamOptions.WrittenAs groups texts)
    (hwritable : ∀ o ∈ groups, o.IsWritable) :
    ∃ gs, OptionPair.readGroups ([','].intercalate texts) = .ok gs ∧
      gs.mapM ParamOptions.ofPairs = .ok groups := by
  obtain ⟨gs, hgs, hgroups⟩ := exists_groups_of_writtenAs h hwritable
  have htexts : texts ≠ [] := by
    rintro rfl
    cases h
    exact hne rfl
  have hsplit : Text.splitUnquoted ',' ([','].intercalate texts) = texts := by
    refine Text.splitUnquoted_intercalate Text.separates_comma.quote htexts fun text htext => ?_
    obtain ⟨o, ho, htext⟩ := forall₂_mem_right h htext
    exact (hwritable o ho).passes Text.separates_comma htext
  obtain ⟨text, htext⟩ := List.exists_mem_of_ne_nil texts htexts
  obtain ⟨_, -, hblank, -⟩ := forall₂_mem_left hgs htext
  refine ⟨gs, (OptionPair.readGroups_eq_ok ?_).mpr (hsplit.symm ▸ hgs), hgroups⟩
  exact Text.isBlankText_of_mem_splitUnquoted (by decide) (hsplit.symm ▸ htext) hblank

/-- A written clause is read back. -/
theorem IsWritable.read (hc : c.IsWritable) (h : c.WrittenAs t) : read t = .ok c := by
  cases h with
  | bare argument lead trail hlead htrail =>
    exact read_eq_ok.mpr ⟨[], [], splitClause_name hc.named hlead htrail, rfl, rfl⟩
  | grouped argument lead gap hlead hgap hne hgroups htexts =>
    obtain ⟨rest, hsplit, htrim⟩ := splitClause_named hc.named hlead hgap hne _
    obtain ⟨gs, hgs, hgroups⟩ := exists_readGroups_of_writtenAs hgroups htexts hc.groups
    refine read_eq_ok.mpr ⟨rest, gs, hsplit, ?_, hgroups⟩
    rw [← OptionPair.readGroups_trim, htrim, OptionPair.readGroups_trim, hgs]

/-- Semicolons stand in the quotes of a written clause. -/
theorem IsWritable.passes_semicolon (hc : c.IsWritable) (h : c.WrittenAs t) :
    Text.Passes ';' t := by
  have hsep := Text.separates_semicolon
  cases h with
  | bare argument lead trail hlead htrail => exact passes_named hsep hc.named hlead htrail
  | @grouped argument lead gap groups texts hlead hgap hne hgroups htexts =>
    have hcomma : Text.Passes ';' [','] := ⟨by decide, by decide⟩
    have hgroups : Text.Passes ';' ([','].intercalate texts) :=
      passes_intercalate hsep.quote hcomma fun text htext => by
        obtain ⟨o, ho, htext⟩ := forall₂_mem_right htexts htext
        exact (hc.groups o ho).passes hsep htext
    rw [← List.append_assoc]
    exact (passes_named hsep hc.named hlead hgap).append hsep.quote hgroups

/-- Written clauses are separated at the semicolons between them. -/
theorem AllWrittenAs.splitUnquoted {cs : List ArgumentClause} (hne : cs ≠ [])
    (hcs : ∀ c ∈ cs, c.IsWritable) (h : AllWrittenAs cs t) :
    List.Forall₂ WrittenAs cs (t.splitUnquoted ';') := by
  obtain ⟨texts, htexts, rfl⟩ := h
  have htexts_ne : texts ≠ [] := by
    rintro rfl
    cases htexts
    exact hne rfl
  rwa [Text.splitUnquoted_intercalate Text.separates_semicolon.quote htexts_ne fun text htext => ?_]
  obtain ⟨c, hc, htext⟩ := forall₂_mem_right htexts htext
  exact (hcs c hc).passes_semicolon htext

end ArgumentClause

/-- A written manipulation is read back. -/
theorem BodyOverlay.read_of_writtenAs {m : BodyOverlay} {t : Text} (hm : m.clause.IsWritable)
    (hlocation : m.options.location = none) (h : m.clause.WrittenAs t) : read t = .ok m := by
  unfold clause at h
  cases h with
  | @grouped _ lead gap _ texts hlead hgap hne _ htexts =>
    obtain ⟨text, _, htext, hnil, rfl⟩ := List.forall₂_cons_left_iff.mp htexts
    cases hnil
    obtain ⟨rest, hsplit, htrim⟩ := splitClause_named hm.named hlead hgap hne _
    have ho := hm.groups m.options List.mem_cons_self
    obtain ⟨-, pairs, hpairs, hoptions⟩ := ho.reads htext
    refine read_eq_ok.mpr ⟨rest, pairs, hsplit, ?_, hoptions, hlocation, ho.nonempty⟩
    rw [← OptionPair.readAll_trim, htrim, OptionPair.readAll_trim, List.intercalate_singleton,
      hpairs]

/-- Clauses that can be written are read back from every text that they are written as, and there is
one. So are manipulations of a body, as clauses with one group and no location. -/
theorem written_options_read (cs : List ArgumentClause) (ms : List BodyOverlay) :
    ArgumentClause.AllWrittenAs cs (ArgumentClause.writtenAll cs) ∧
    (cs ≠ [] → (∀ c ∈ cs, c.IsWritable) → ∀ t, ArgumentClause.AllWrittenAs cs t →
      ArgumentClause.readAll (String.ofList t) = .ok cs) ∧
    (ms ≠ [] → (∀ m ∈ ms, m.clause.IsWritable ∧ m.options.location = none) →
      ∀ t, ArgumentClause.AllWrittenAs (ms.map (·.clause)) t →
        BodyRule.read (String.ofList t) = .ok (.overlaid ms)) := by
  refine ⟨ArgumentClause.allWrittenAs_writtenAll cs, fun hne hcs t h => ?_, fun hne hms t h => ?_⟩
  · rw [ArgumentClause.readAll_eq_ok, String.toList_ofList]
    have hparts := (List.forall₂_and_left _ _).mpr ⟨hcs, h.splitUnquoted hne hcs⟩
    exact (hparts.imp fun c part hc => hc.1.read hc.2).flip
  · have hcs : ∀ c ∈ ms.map (·.clause), c.IsWritable := by
      rw [List.forall_mem_map]
      exact fun m hm => (hms m hm).1
    have hsplit := h.splitUnquoted (by simpa using hne) hcs
    have hparts := (List.forall₂_and_left _ _).mpr ⟨hms, List.forall₂_map_left_iff.mp hsplit⟩
    rw [BodyRule.read_eq_ok_overlaid, String.toList_ofList]
    exact (hparts.imp fun m part hm => m.read_of_writtenAs hm.1.1 hm.1.2 hm.2).flip

/-- Separators in values do not separate, and an empty value is one. -/
theorem written_options_read_separators :
    ArgumentClause.readAll "id in='header' name='X, Y; in=query',descr='';b" =
      .ok [⟨"id", [{ location := some .header, name := some "X, Y; in=query" },
        { description := some "" }]⟩, ⟨"b", []⟩] ∧
    BodyRule.read "user required='true' descr='a;b = c'" =
      .ok (.overlaid [⟨"user", { required := some true, description := some "a;b = c" }⟩]) := by
  obtain ⟨hwritten, hclauses, -⟩ := written_options_read
    [⟨"id", [{ location := some .header, name := some "X, Y; in=query" },
      { description := some "" }]⟩, ⟨"b", []⟩] []
  obtain ⟨-, -, hbody⟩ := written_options_read []
    [⟨"user", { required := some true, description := some "a;b = c" }⟩]
  exact ⟨hclauses (by decide) (by decide) _ hwritten,
    hbody (by decide) (by decide) _ (ArgumentClause.allWrittenAs_writtenAll _)⟩

end Routespec
