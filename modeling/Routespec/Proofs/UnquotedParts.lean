import Routespec.Proofs.QuotedSplits

/-!
# Parts between separators outside quotes

Splitting loses nothing: the parts with the separator between them are the text again. It cuts at
the separators that have an even number of quotes before them in the whole text, and at no other
character. So all parts but the last one close their quotes, and a separator that is left in a part
stands in quotes. No other parts of a text are like that.
-/

namespace Routespec

namespace Text

/-- The positions of the separators in the text that the parts make with one between each two. -/
def cuts : List Text → List Nat
  | part :: next :: parts => part.length :: (cuts (next :: parts)).map (part.length + 1 + ·)
  | _ => []

/-- The separators in the parts stand in quotes, and those between the parts do not. -/
inductive AreParts (sep : Char) : Bool → List Text → Prop
  | last {quoted : Bool} {part : Text} (huncut : Uncut sep quoted part) :
    AreParts sep quoted [part]
  | cut {quoted : Bool} {part : Text} {parts : List Text} (huncut : Uncut sep quoted part)
    (hclosed : endsQuoted quoted part = false) (hparts : AreParts sep false parts) :
    AreParts sep quoted (part :: parts)

section Parts

variable {sep : Char} {quoted : Bool}

theorem AreParts.ne_nil {parts : List Text} (h : AreParts sep quoted parts) : parts ≠ [] := by
  cases h <;> exact List.cons_ne_nil _ _

theorem areParts_singleton {part : Text} :
    AreParts sep quoted [part] ↔ Uncut sep quoted part := by
  refine ⟨fun h => ?_, .last⟩
  cases h with
  | last huncut => exact huncut
  | cut huncut _ _ => exact huncut

theorem areParts_cons_of_ne_nil {part : Text} {parts : List Text} (hne : parts ≠ []) :
    AreParts sep quoted (part :: parts) ↔
      Uncut sep quoted part ∧ endsQuoted quoted part = false ∧ AreParts sep false parts := by
  refine ⟨fun h => ?_, fun ⟨huncut, hclosed, hparts⟩ => .cut huncut hclosed hparts⟩
  cases h with
  | last _ => exact absurd rfl hne
  | cut huncut hclosed hparts => exact ⟨huncut, hclosed, hparts⟩

/-- Out of quotes, the condition is one on each part by itself. -/
theorem areParts_iff {parts : List Text} : AreParts sep false parts ↔ parts ≠ [] ∧
    (∀ part ∈ parts.dropLast, endsQuoted false part = false) ∧
    ∀ part ∈ parts, Uncut sep false part := by
  induction parts with
  | nil => exact ⟨fun h => absurd rfl h.ne_nil, fun h => absurd rfl h.1⟩
  | cons part parts ih =>
    by_cases hne : parts = []
    · rw [hne, areParts_singleton]
      simp
    · rw [areParts_cons_of_ne_nil hne, ih, List.dropLast_cons_of_ne_nil hne, List.forall_mem_cons,
        List.forall_mem_cons]
      have hcons := List.cons_ne_nil part parts
      tauto

/-- A character that does not cut belongs to the first part. -/
theorem AreParts.modifyHead_cons {c : Char} {parts : List Text}
    (hcut : ¬(c = sep ∧ quoted = false))
    (h : AreParts sep (if c = '\'' then !quoted else quoted) parts) :
    AreParts sep quoted (parts.modifyHead (c :: ·)) := by
  cases h with
  | last huncut => exact .last (uncut_cons.mpr ⟨hcut, huncut⟩)
  | cut huncut hclosed hparts => exact .cut (uncut_cons.mpr ⟨hcut, huncut⟩) hclosed hparts

/-- A character in front of the first part moves all separators by one. -/
theorem cuts_modifyHead_cons (c : Char) (parts : List Text) :
    cuts (parts.modifyHead (c :: ·)) = (cuts parts).map (· + 1) := by
  match parts with
  | [] => rfl
  | [_] => rfl
  | part :: next :: parts =>
    have hshift : (part.length + 1 + 1 + ·) = (· + 1) ∘ (part.length + 1 + ·) := by
      funext i
      simp only [Function.comp_apply]
      omega
    rw [List.modifyHead_cons, cuts, cuts, List.map_cons, List.map_map, List.length_cons, hshift]

theorem cuts_nil_cons {parts : List Text} (hne : parts ≠ []) :
    cuts ([] :: parts) = 0 :: (cuts parts).map (· + 1) := by
  obtain ⟨next, parts, rfl⟩ := List.exists_cons_of_ne_nil hne
  simp [cuts, Nat.add_comm]

end Parts

section Split

variable {sep : Char}

theorem areParts_splitFrom (hsep : sep ≠ '\'') (quoted : Bool) (t : Text) :
    AreParts sep quoted (splitFrom sep quoted t) := by
  induction t generalizing quoted with
  | nil => exact .last (uncut_nil sep quoted)
  | cons c t ih =>
    by_cases hcut : c = sep ∧ quoted = false
    · obtain ⟨rfl, rfl⟩ := hcut
      rw [splitFrom_cons_of_cut hsep]
      exact .cut (uncut_nil c false) rfl (ih false)
    · rw [splitFrom_cons_of_not_cut hcut]
      exact (ih _).modifyHead_cons hcut

theorem intercalate_splitFrom (hsep : sep ≠ '\'') (quoted : Bool) (t : Text) :
    [sep].intercalate (splitFrom sep quoted t) = t := by
  induction t generalizing quoted with
  | nil => rfl
  | cons c t ih =>
    by_cases hcut : c = sep ∧ quoted = false
    · obtain ⟨rfl, rfl⟩ := hcut
      rw [splitFrom_cons_of_cut hsep,
        List.intercalate_cons_of_ne_nil (splitFrom_ne_nil hsep false t), ih]
      rfl
    · rw [splitFrom_cons_of_not_cut hcut]
      obtain ⟨part, parts, hparts⟩ := List.exists_cons_of_ne_nil
        (splitFrom_ne_nil hsep (if c = '\'' then !quoted else quoted) t)
      rw [hparts, List.modifyHead_cons, List.intercalate_cons_cons_left, ← hparts, ih]

/-- A text is cut at its separators before which all quotes are closed. -/
theorem cuts_splitFrom (hsep : sep ≠ '\'') (quoted : Bool) (t : Text) :
    cuts (splitFrom sep quoted t) = (List.range t.length).filter fun i =>
      t[i]? = some sep ∧ endsQuoted quoted (t.take i) = false := by
  induction t generalizing quoted with
  | nil => rfl
  | cons c t ih =>
    rw [List.length_cons, List.range_succ_eq_map]
    -- behind `c`, what is cut is what is cut of `t`
    have hbehind : (fun i => decide ((c :: t)[i]? = some sep ∧
        endsQuoted quoted ((c :: t).take i) = false)) ∘ Nat.succ = fun i =>
        decide (t[i]? = some sep ∧
          endsQuoted (if c = '\'' then !quoted else quoted) (t.take i) = false) := by
      funext i
      rw [Function.comp_apply, List.getElem?_cons_succ, List.take_succ_cons, endsQuoted_cons]
    by_cases hcut : c = sep ∧ quoted = false
    · obtain ⟨rfl, rfl⟩ := hcut
      rw [splitFrom_cons_of_cut hsep, cuts_nil_cons (splitFrom_ne_nil hsep false t),
        List.filter_cons_of_pos (by simp [endsQuoted]), List.filter_map, hbehind, ← ih,
        if_neg hsep]
    · rw [splitFrom_cons_of_not_cut hcut, cuts_modifyHead_cons,
        List.filter_cons_of_neg (by simpa [endsQuoted] using hcut), List.filter_map, hbehind, ← ih]

/-- Such parts are what the text that they make is split into. -/
theorem AreParts.splitFrom_intercalate (hsep : sep ≠ '\'') {quoted : Bool} {parts : List Text}
    (h : AreParts sep quoted parts) :
    splitFrom sep quoted ([sep].intercalate parts) = parts := by
  induction h with
  | last huncut => rw [List.intercalate_singleton, splitFrom_of_uncut huncut]
  | cut huncut hclosed hparts ih =>
    rw [List.intercalate_cons_of_ne_nil hparts.ne_nil, List.append_assoc, List.singleton_append,
      splitFrom_append_of_eq_singleton hsep (splitFrom_of_uncut huncut), hclosed,
      splitFrom_cons_of_cut hsep, ih, List.modifyHead_cons, List.append_nil]

theorem splitFrom_eq_iff (hsep : sep ≠ '\'') {quoted : Bool} {t : Text} {parts : List Text} :
    splitFrom sep quoted t = parts ↔
      AreParts sep quoted parts ∧ [sep].intercalate parts = t := by
  constructor
  · rintro rfl
    exact ⟨areParts_splitFrom hsep quoted t, intercalate_splitFrom hsep quoted t⟩
  · rintro ⟨hparts, rfl⟩
    exact hparts.splitFrom_intercalate hsep

theorem Passes.uncut (hsep : sep ≠ '\'') {t : Text} (h : Passes sep t) : Uncut sep false t :=
  areParts_singleton.mp ((splitFrom_eq_iff hsep).mp h.1).1

/-- Parts that are separated are what the text is split into. -/
theorem splitUnquoted_intercalate (hsep : sep ≠ '\'') {parts : List Text} (hne : parts ≠ [])
    (hparts : ∀ part ∈ parts, Passes sep part) :
    splitUnquoted sep ([sep].intercalate parts) = parts :=
  (areParts_iff.mpr ⟨hne, fun part hpart => (hparts part (List.dropLast_subset parts hpart)).2,
    fun part hpart => (hparts part hpart).uncut hsep⟩).splitFrom_intercalate hsep

/-- A text has just one list of parts with even numbers of quotes in all but the last one, and with
odd numbers of them before all separators in the parts. -/
theorem splitUnquoted_eq_iff (hsep : sep ≠ '\'') {t : Text} {parts : List Text} :
    splitUnquoted sep t = parts ↔ parts ≠ [] ∧ [sep].intercalate parts = t ∧
      (∀ part ∈ parts.dropLast, Even (part.count '\'')) ∧
      ∀ part ∈ parts, ∀ u v, part = u ++ sep :: v → ¬Even (u.count '\'') := by
  have hopen (u : Text) : endsQuoted false u = true ↔ ¬Even (u.count '\'') := by
    rw [← endsQuoted_eq_false_iff, Bool.not_eq_false]
  unfold splitUnquoted
  rw [splitFrom_eq_iff hsep, areParts_iff]
  simp only [Uncut, hopen, endsQuoted_eq_false_iff]
  tauto

/-- Splitting loses nothing, and cuts exactly at the separators that have an even number of quotes
before them in the text. So all parts but the last one have an even number of quotes, and all
separators in a part have an odd number of them before them. -/
theorem splitUnquoted_lossless (hsep : sep ≠ '\'') (t : Text) :
    t.splitUnquoted sep ≠ [] ∧
    [sep].intercalate (t.splitUnquoted sep) = t ∧
    (cuts (t.splitUnquoted sep) = (List.range t.length).filter fun i =>
      t[i]? = some sep ∧ Even ((t.take i).count '\'')) ∧
    (∀ part ∈ (t.splitUnquoted sep).dropLast, Even (part.count '\'')) ∧
    ∀ part ∈ t.splitUnquoted sep, ∀ u v, part = u ++ sep :: v → ¬Even (u.count '\'') := by
  obtain ⟨hne, hjoin, hclosed, huncut⟩ :=
    (splitUnquoted_eq_iff hsep).mp (Eq.refl (t.splitUnquoted sep))
  refine ⟨hne, hjoin, ?_, hclosed, huncut⟩
  rw [splitUnquoted, cuts_splitFrom hsep]
  simp only [endsQuoted_eq_false_iff]

/-- An arrow in quotes does not cut, and neither does one behind a quote that stays open. -/
theorem splitUnquoted_lossless_of_arrows :
    let parts := splitUnquoted '→' "id→'a→é'→it's→c".toList
    '→' ≠ '\'' ∧ parts = ["id".toList, "'a→é'".toList, "it's→c".toList] ∧
    ['→'].intercalate parts = "id→'a→é'→it's→c".toList ∧ cuts parts = [2, 8] ∧
    (∀ part ∈ parts.dropLast, Even (part.count '\'')) ∧
    ∀ part ∈ parts, ∀ u v, part = u ++ '→' :: v → ¬Even (u.count '\'') := by
  have hsep : '→' ≠ '\'' := by decide
  obtain ⟨-, hjoin, hcuts, hclosed, hopen⟩ :=
    splitUnquoted_lossless hsep "id→'a→é'→it's→c".toList
  exact ⟨hsep, by decide, hjoin, hcuts.trans (by decide), hclosed, hopen⟩

end Split

end Text

end Routespec
