import Routespec.Proofs.Checked
import Routespec.Proofs.QuotedSplits
import Routespec.Rule.Body

/-!
# How clauses are read

A clause is a name and, behind white space, groups of options. What is read of it depends on the
name and on the text behind it, without the white space around that. The arguments of a `param`
directive, and the manipulations of a `body` directive, are read part by part between semicolons.
-/

namespace Routespec

section Names

variable {name : String} {lead rest clause : Text}

/-- What stands behind the name is trimmed at its end. -/
theorem trim_named (hname : isIdentifier name = true) (hlead : lead.isBlankText = true)
    (rest : Text) : Text.trim (lead ++ name.toList ++ rest) = name.toList ++ rest.trimRight := by
  obtain ⟨hne, hsolid⟩ := Text.solid_of_isIdentifier hname
  rw [List.append_assoc, Text.trim_of_blank_append hlead, Text.trim_append_of_solid hsolid hne]

theorem splitClause_of_trim (hname : isIdentifier name = true)
    (hclause : clause.trim = name.toList) : splitClause clause = .ok (name, []) := by
  obtain ⟨hne, hsolid⟩ := Text.solid_of_isIdentifier hname
  unfold splitClause
  rw [hclause]
  dsimp only
  rw [if_neg hne, Text.cutAt?_eq_none hsolid, Option.getD_none]
  dsimp only
  rw [← isIdentifier, if_pos hname, String.ofList_toList]

theorem splitClause_of_trim_append (hname : isIdentifier name = true) {c : Char}
    (hc : isBlank c = true) (hclause : clause.trim = name.toList ++ c :: rest) :
    splitClause clause = .ok (name, rest) := by
  obtain ⟨-, hsolid⟩ := Text.solid_of_isIdentifier hname
  unfold splitClause
  rw [hclause]
  dsimp only
  rw [if_neg (by simp), Text.cutAt?_append_cons hsolid hc, Option.getD_some]
  dsimp only
  rw [← isIdentifier, if_pos hname, String.ofList_toList]

/-- A clause that is a name. -/
theorem splitClause_name (hname : isIdentifier name = true) {trail : Text}
    (hlead : lead.isBlankText = true) (htrail : trail.isBlankText = true) :
    splitClause (lead ++ name.toList ++ trail) = .ok (name, []) := by
  have hnothing : Text.trimRight trail = [] := Text.trimRight_append_of_blank htrail []
  refine splitClause_of_trim hname ?_
  rw [trim_named hname hlead, hnothing, List.append_nil]

/-- A clause with white space behind its name, and perhaps something else. -/
theorem splitClause_named (hname : isIdentifier name = true) (hlead : lead.isBlankText = true)
    {gap : Text} (hgap : gap.isBlankText = true) (hne : gap ≠ []) (behind : Text) :
    ∃ rest, splitClause (lead ++ name.toList ++ (gap ++ behind)) = .ok (name, rest) ∧
      Text.trim rest = behind.trim := by
  obtain ⟨c, gap, rfl⟩ := List.exists_cons_of_ne_nil hne
  obtain ⟨hc, hgap⟩ := Bool.and_eq_true_iff.mp hgap
  have htrim := trim_named hname hlead (c :: (gap ++ behind))
  rw [← Text.trim_of_blank_append hgap behind, ← Text.trim_trimRight]
  rw [Text.trimRight_cons] at htrim
  split at htrim
  · next hbehind =>
    rw [List.append_nil] at htrim
    exact ⟨[], splitClause_of_trim hname htrim, by rw [hbehind.1]⟩
  · exact ⟨_, splitClause_of_trim_append hname hc htrim, rfl⟩

/-- Every clause is like that. -/
theorem exists_named_of_splitClause (h : splitClause clause = .ok (name, rest)) :
    isIdentifier name = true ∧ ∃ lead, lead.isBlankText = true ∧
      ((∃ trail, trail.isBlankText = true ∧ clause = lead ++ name.toList ++ trail ∧ rest = []) ∨
        ∃ (c : Char) (behind : Text), isBlank c = true ∧
          clause = lead ++ name.toList ++ c :: behind ∧ rest.trim = behind.trim) := by
  obtain ⟨lead, trail, hlead, htrail, hclause⟩ := Text.exists_eq_append_trim clause
  unfold splitClause at h
  dsimp only at h
  split at h
  · exact absurd h fail_ne_ok
  · split at h
    · next hname =>
      obtain ⟨rfl, rfl⟩ := Prod.mk.inj (Except.ok.inj h)
      refine ⟨by rwa [isIdentifier, String.toList_ofList], lead, hlead, ?_⟩
      cases hcut : clause.trim.cutAt? isBlank with
      | none => exact .inl ⟨trail, htrail, by simpa using hclause, rfl⟩
      | some cut =>
        obtain ⟨c, -, hc, htrim⟩ := Text.cutAt?_eq_some.mp hcut
        refine .inr ⟨c, cut.2 ++ trail, hc, ?_, ?_⟩
        · rw [hclause, htrim]
          simp
        · rw [Option.getD_some, Text.trim_append_of_blank htrail]
    · exact absurd h fail_ne_ok

/-- No separator stands in what is a name but for white space. -/
theorem passes_named {sep : Char} (hsep : Text.Separates sep) (hname : isIdentifier name = true)
    {gap : Text} (hlead : lead.isBlankText = true) (hgap : gap.isBlankText = true) :
    Text.Passes sep (lead ++ name.toList ++ gap) :=
  ((Text.passes_of_blank hsep hlead).append hsep.quote
    (Text.passes_of_isIdentifier hsep hname)).append hsep.quote (Text.passes_of_blank hsep hgap)

end Names

section Groups

variable {t : Text}

theorem OptionPair.readGroups_eq_ok (ht : t.isBlankText = false) {groups : List (List OptionPair)} :
    OptionPair.readGroups t = .ok groups ↔
      List.Forall₂ (fun group pairs => Text.isBlankText group = false ∧
        OptionPair.readAll group = .ok pairs) (t.splitUnquoted ',') groups := by
  rw [OptionPair.readGroups, if_neg (by simp [ht]), mapM_eq_ok]
  refine iff_of_eq (congrArg (List.Forall₂ · _ _) (funext₂ fun group pairs => propext ?_))
  cases hgroup : group.isBlankText <;> simp

/-- A clause is read as the options that are read of each group behind its name. -/
theorem ArgumentClause.read_eq_ok {clause : Text} {c : ArgumentClause} :
    ArgumentClause.read clause = .ok c ↔ ∃ rest groups,
      splitClause clause = .ok (c.argument, rest) ∧ OptionPair.readGroups rest = .ok groups ∧
      groups.mapM ParamOptions.ofPairs = .ok c.groups := by
  constructor
  · intro h
    obtain ⟨⟨argument, rest⟩, hsplit, h⟩ := bind_eq_ok.mp h
    obtain ⟨groups, hgroups, h⟩ := bind_eq_ok.mp h
    obtain ⟨options, hoptions, h⟩ := bind_eq_ok.mp h
    obtain rfl := pure_eq_ok.mp h
    exact ⟨rest, groups, hsplit, hgroups, within_eq_ok.mp hoptions⟩
  · rintro ⟨rest, groups, hsplit, hgroups, hoptions⟩
    refine bind_eq_ok.mpr ⟨_, hsplit, bind_eq_ok.mpr ⟨groups, hgroups, bind_eq_ok.mpr ?_⟩⟩
    exact ⟨_, within_eq_ok.mpr hoptions, rfl⟩

/-- The clauses of a directive are read one by one. -/
theorem ArgumentClause.readAll_eq_ok {args : String} {cs : List ArgumentClause} :
    ArgumentClause.readAll args = .ok cs ↔
      List.Forall₂ (fun part c => ArgumentClause.read part = .ok c)
        (Text.splitUnquoted ';' args.toList) cs := by
  rw [ArgumentClause.readAll, ← mapM_eq_ok]
  by_cases hblank : Text.isBlankText args.toList = true
  · -- what is blank is one part, and no clause
    have hpart : Text.splitUnquoted ';' args.toList = [args.toList] :=
      Text.splitFrom_of_blank (by decide) hblank false
    have hread : ArgumentClause.read args.toList = fail .emptyBinding := by
      rw [← ArgumentClause.read_trim, Text.trim, Text.trimLeft_of_blank hblank]
      rfl
    rw [if_pos hblank, hpart, List.mapM_cons, hread]
    exact iff_of_false fail_ne_ok fail_ne_ok
  · rw [if_neg hblank]

end Groups

section Bodies

theorem BodyOverlay.read_trim (clause : Text) : read clause.trim = read clause := by
  unfold read
  rw [splitClause_trim]

/-- A manipulation is read as the options behind its name. -/
theorem BodyOverlay.read_eq_ok {clause : Text} {m : BodyOverlay} :
    BodyOverlay.read clause = .ok m ↔ ∃ rest pairs, splitClause clause = .ok (m.argument, rest) ∧
      OptionPair.readAll rest = .ok pairs ∧ ParamOptions.ofPairs pairs = .ok m.options ∧
      m.options.location = none ∧ m.options.isEmpty = false := by
  unfold BodyOverlay.read
  constructor
  · intro h
    obtain ⟨⟨argument, rest⟩, hsplit, h⟩ := bind_eq_ok.mp h
    obtain ⟨options, hoptions, h⟩ := bind_eq_ok.mp h
    obtain ⟨pairs, hpairs, hoptions⟩ := bind_eq_ok.mp (within_eq_ok.mp hoptions)
    split_ifs at h with hlocation hempty
    · exact absurd h fail_ne_ok
    · exact absurd h fail_ne_ok
    · obtain rfl := pure_eq_ok.mp h
      exact ⟨rest, pairs, hsplit, hpairs, hoptions, by simpa using hlocation, by simpa using hempty⟩
  · rintro ⟨rest, pairs, hsplit, hpairs, hoptions, hlocation, hempty⟩
    have hread : ParamOptions.read rest = .ok m.options :=
      bind_eq_ok.mpr ⟨pairs, hpairs, hoptions⟩
    refine bind_eq_ok.mpr ⟨_, hsplit, bind_eq_ok.mpr ⟨_, within_eq_ok.mpr hread, ?_⟩⟩
    rw [if_neg (by simp [hlocation]), if_neg (by simp [hempty])]
    rfl

/-- A lone name manipulates nothing. -/
theorem BodyOverlay.read_name {name : String} (hname : isIdentifier name = true) :
    BodyOverlay.read name.toList = fail (.emptyManipulation name) := by
  have hsplit : splitClause ([] ++ name.toList ++ []) = .ok (name, []) :=
    splitClause_name hname rfl rfl
  have hoptions : ParamOptions.read [] = .ok {} := by
    rw [ParamOptions.read, OptionPair.readAll_eq]
    rfl
  rw [List.nil_append, List.append_nil] at hsplit
  simp only [BodyOverlay.read, hsplit, bind, Except.bind, hoptions]
  rfl

/-- The manipulations of a directive are read one by one. -/
theorem BodyRule.read_eq_ok_overlaid {args : String} {ms : List BodyOverlay} :
    BodyRule.read args = .ok (.overlaid ms) ↔
      List.Forall₂ (fun part m => BodyOverlay.read part = .ok m)
        (Text.splitUnquoted ';' args.toList) ms := by
  rw [← mapM_eq_ok, ← Text.mapM_splitUnquoted_trim BodyOverlay.read_trim (by decide)]
  unfold BodyRule.read
  dsimp only
  generalize Text.trim args.toList = t
  split_ifs with hhyphen hnil hname
  · subst hhyphen
    exact iff_of_false (by simp) fail_ne_ok
  · subst hnil
    exact iff_of_false fail_ne_ok fail_ne_ok
  · have hpart := (Text.passes_of_isIdentifier Text.separates_semicolon hname).1
    have hread : BodyOverlay.read (String.ofList t).toList = _ :=
      BodyOverlay.read_name (by rwa [isIdentifier, String.toList_ofList])
    rw [String.toList_ofList] at hread
    rw [Text.splitUnquoted, hpart, List.mapM_cons, hread]
    exact iff_of_false (by simp) fail_ne_ok
  · rw [map_eq_ok]
    simp

end Bodies

end Routespec
