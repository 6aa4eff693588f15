import Mathlib.Algebra.Group.Nat.Even
import Routespec.Proofs.ArgumentSpacing

/-!
# Splitting a text that goes on

What splitting does behind a text depends on one thing only: whether a quote is open there, which is
so if the number of quotes is odd. Out of quotes, a separator ends the last part; in quotes it is
taken into it. A text whose separators stand in quotes, and which closes all of these, is gone
through without a cut.
-/

namespace Routespec

namespace Text

/-- Behind the text, a quote is open; `quoted` tells whether one is at its start. -/
def endsQuoted (quoted : Bool) (t : Text) : Bool :=
  t.foldl (fun quoted c => if c = '\'' then !quoted else quoted) quoted

theorem endsQuoted_cons (quoted : Bool) (c : Char) (t : Text) :
    endsQuoted quoted (c :: t) = endsQuoted (if c = '\'' then !quoted else quoted) t := rfl

theorem endsQuoted_append (quoted : Bool) (s t : Text) :
    endsQuoted quoted (s ++ t) = endsQuoted (endsQuoted quoted s) t := List.foldl_append

theorem endsQuoted_of_not_mem {t : Text} (ht : '\'' ∉ t) (quoted : Bool) :
    endsQuoted quoted t = quoted := by
  induction t with
  | nil => rfl
  | cons c t ih =>
    rw [List.mem_cons, not_or] at ht
    rw [endsQuoted_cons, if_neg (Ne.symm ht.1), ih ht.2]

theorem endsQuoted_iff (quoted : Bool) (t : Text) :
    endsQuoted quoted t = true ↔ (quoted = true ↔ Even (t.count '\'')) := by
  induction t generalizing quoted with
  | nil => simp [endsQuoted]
  | cons c t ih =>
    rw [endsQuoted_cons, ih]
    by_cases hc : c = '\''
    · rw [if_pos hc, hc, List.count_cons_self, Nat.even_add_one]
      cases quoted <;> simp
    · rw [if_neg hc, List.count_cons_of_ne hc]

/-- An even number of quotes leaves none open. -/
theorem endsQuoted_eq_false_iff (t : Text) : endsQuoted false t = false ↔ Even (t.count '\'') := by
  rw [Bool.eq_false_iff, ne_eq, endsQuoted_iff]
  simp

/-- The character stands in no name, and it is no white space, equals sign or quote. -/
structure Separates (sep : Char) : Prop where
  part : isIdentifierPart sep = false
  blank : isBlank sep = false
  equals : sep ≠ '='
  quote : sep ≠ '\''

theorem separates_comma : Separates ',' := ⟨by decide, by decide, by decide, by decide⟩

theorem separates_semicolon : Separates ';' := ⟨by decide, by decide, by decide, by decide⟩

/-- The separators of the text stand in quotes; `quoted` tells whether one is open at its start. -/
def Uncut (sep : Char) (quoted : Bool) (t : Text) : Prop :=
  ∀ u v, t = u ++ sep :: v → endsQuoted quoted u = true

section Split

variable {sep : Char}

theorem uncut_nil (sep : Char) (quoted : Bool) : Uncut sep quoted [] := by
  simp [Uncut]

theorem uncut_cons {quoted : Bool} {c : Char} {t : Text} : Uncut sep quoted (c :: t) ↔
    ¬(c = sep ∧ quoted = false) ∧ Uncut sep (if c = '\'' then !quoted else quoted) t := by
  constructor
  · intro h
    refine ⟨?_, fun u v htext => h (c :: u) v (congrArg (c :: ·) htext)⟩
    rintro ⟨rfl, rfl⟩
    exact absurd (h [] t rfl) (by simp [endsQuoted])
  · rintro ⟨hcut, h⟩ u v htext
    cases u with
    | nil =>
      obtain ⟨rfl, -⟩ := List.cons.inj htext
      simpa [endsQuoted] using hcut
    | cons d u =>
      obtain ⟨rfl, hbehind⟩ := List.cons.inj htext
      exact h u v hbehind

theorem splitFrom_of_uncut {quoted : Bool} {t : Text} (h : Uncut sep quoted t) :
    splitFrom sep quoted t = [t] := by
  induction t generalizing quoted with
  | nil => rfl
  | cons c t ih =>
    obtain ⟨hcut, htail⟩ := uncut_cons.mp h
    rw [splitFrom_cons_of_not_cut hcut, ih htail]
    rfl

/-- If a text goes on, then its last part does, and what follows is split as it is behind it. Quotes
that are open behind the text are open behind its last part. -/
theorem splitFrom_append (hsep : sep ≠ '\'') (quoted : Bool) (s : Text) :
    ∃ init last, splitFrom sep quoted s = init ++ [last] ∧
      endsQuoted (quoted && init.isEmpty) last = endsQuoted quoted s ∧
      ∀ t, splitFrom sep quoted (s ++ t) =
        init ++ (splitFrom sep (endsQuoted quoted s) t).modifyHead (last ++ ·) := by
  induction s generalizing quoted with
  | nil =>
    refine ⟨[], [], rfl, by simp, fun t => ?_⟩
    exact (congrFun List.modifyHead_id _).symm
  | cons c s ih =>
    rw [endsQuoted_cons]
    obtain ⟨init, last, hsplit, hquotes, happend⟩ := ih (if c = '\'' then !quoted else quoted)
    by_cases hcut : c = sep ∧ quoted = false
    · obtain ⟨rfl, rfl⟩ := hcut
      rw [if_neg hsep] at hsplit hquotes happend ⊢
      refine ⟨[] :: init, last, ?_, hquotes, fun t => ?_⟩
      · rw [splitFrom_cons_of_cut hsep, hsplit, List.cons_append]
      · rw [List.cons_append, splitFrom_cons_of_cut hsep, happend, List.cons_append]
    · cases init with
      | nil =>
        refine ⟨[], c :: last, ?_, ?_, fun t => ?_⟩
        · rw [splitFrom_cons_of_not_cut hcut, hsplit]
          rfl
        · simpa [endsQuoted_cons] using hquotes
        · rw [List.cons_append, splitFrom_cons_of_not_cut hcut, happend, List.nil_append,
            List.nil_append, List.modifyHead_modifyHead]
          rfl
      | cons part init =>
        refine ⟨(c :: part) :: init, last, ?_, ?_, fun t => ?_⟩
        · rw [splitFrom_cons_of_not_cut hcut, hsplit]
          rfl
        · simpa using hquotes
        · rw [List.cons_append, splitFrom_cons_of_not_cut hcut, happend]
          rfl

theorem splitFrom_ne_nil (hsep : sep ≠ '\'') (quoted : Bool) (t : Text) :
    splitFrom sep quoted t ≠ [] := by
  obtain ⟨_, _, hparts, -⟩ := splitFrom_append hsep quoted t
  simp [hparts]

/-- A text that is not cut belongs to the first part. -/
theorem splitFrom_append_of_eq_singleton (hsep : sep ≠ '\'') {quoted : Bool} {s : Text}
    (hs : splitFrom sep quoted s = [s]) (t : Text) :
    splitFrom sep quoted (s ++ t) =
      (splitFrom sep (endsQuoted quoted s) t).modifyHead (s ++ ·) := by
  obtain ⟨init, last, hsplit, -, happend⟩ := splitFrom_append hsep quoted s
  rw [hs] at hsplit
  obtain ⟨rfl, hlast⟩ := List.append_eq_singleton_iff.mp hsplit.symm |>.resolve_right (by simp)
  obtain rfl := List.singleton_inj.mp hlast
  rw [happend, List.nil_append]

/-- Out of quotes, a separator separates what is before it from what is behind it. -/
theorem splitUnquoted_append_cons (hsep : sep ≠ '\'') {s : Text} (hs : endsQuoted false s = false)
    (t : Text) :
    splitUnquoted sep (s ++ sep :: t) = splitUnquoted sep s ++ splitUnquoted sep t := by
  obtain ⟨init, last, hsplit, -, happend⟩ := splitFrom_append hsep false s
  unfold splitUnquoted
  rw [happend, hs, splitFrom_cons_of_cut hsep, hsplit, List.append_assoc, List.modifyHead_cons,
    List.append_nil, List.singleton_append]

/-- A character that does not cut goes on with the last part. -/
theorem exists_splitUnquoted_append_cons (hsep : sep ≠ '\'') {s : Text} {c : Char}
    (hc : ¬(c = sep ∧ endsQuoted false s = false)) (t : Text) :
    ∃ init last rest parts, splitUnquoted sep s = init ++ [last] ∧
      endsQuoted false last = endsQuoted false s ∧
      splitUnquoted sep (s ++ c :: t) = init ++ (last ++ c :: rest) :: parts := by
  obtain ⟨init, last, hsplit, hquotes, happend⟩ := splitFrom_append hsep false s
  have hstep := splitFrom_cons_of_not_cut hc t
  generalize (if c = '\'' then _ else _) = quoted at hstep
  obtain ⟨rest, parts, hparts⟩ := List.exists_cons_of_ne_nil (splitFrom_ne_nil hsep quoted t)
  refine ⟨init, last, rest, parts, hsplit, hquotes, ?_⟩
  unfold splitUnquoted
  rw [happend, hstep, hparts]
  rfl

/-- The separators of a text like this stand in quotes, and all its quotes are closed: splitting
goes through it without a cut. -/
def Passes (sep : Char) (t : Text) : Prop :=
  splitFrom sep false t = [t] ∧ endsQuoted false t = false

theorem Passes.splitFrom_append (hsep : sep ≠ '\'') {s : Text} (hs : Passes sep s) (t : Text) :
    splitFrom sep false (s ++ t) = (splitFrom sep false t).modifyHead (s ++ ·) := by
  rw [splitFrom_append_of_eq_singleton hsep hs.1, hs.2]

theorem Passes.append (hsep : sep ≠ '\'') {s t : Text} (hs : Passes sep s) (ht : Passes sep t) :
    Passes sep (s ++ t) := by
  refine ⟨?_, ?_⟩
  · rw [hs.splitFrom_append hsep, ht.1]
    rfl
  · rw [endsQuoted_append, hs.2, ht.2]

theorem passes_of_plain {t : Text} (ht : ∀ c ∈ t, c ≠ sep ∧ c ≠ '\'') : Passes sep t := by
  refine ⟨splitFrom_of_uncut fun u v htext => ?_,
    endsQuoted_of_not_mem (fun hmem => (ht _ hmem).2 rfl) false⟩
  have hmem : sep ∈ t := by simp [htext]
  exact absurd rfl (ht sep hmem).1

theorem passes_of_blank (hsep : Separates sep) {t : Text} (ht : t.isBlankText = true) :
    Passes sep t :=
  passes_of_plain fun c hc => by
    have hblank : isBlank c = true := List.all_eq_true.mp ht c hc
    exact ⟨ne_of_isBlank hblank hsep.blank, ne_of_isBlank hblank (by decide)⟩

theorem passes_of_isIdentifier (hsep : Separates sep) {t : Text} (ht : t.isIdentifier = true) :
    Passes sep t := by
  have hpart := isIdentifierPart_of_isIdentifier ht
  refine passes_of_plain fun c hc => ⟨?_, ?_⟩
  · rintro rfl
    exact absurd (hpart c hc) (by simp [hsep.part])
  · rintro rfl
    exact absurd (hpart _ hc) (by decide)

/-- Whatever stands between two quotes passes. -/
theorem passes_quoted {v : Text} (hv : '\'' ∉ v) : Passes sep ('\'' :: (v ++ ['\''])) := by
  have hopen : ∀ u : Text, '\'' ∉ u →
      splitFrom sep true (u ++ ['\'']) = [u ++ ['\'']] := by
    intro u hu
    induction u with
    | nil => rw [List.nil_append, splitFrom_cons_of_not_cut (by simp), splitFrom]; rfl
    | cons c u ih =>
      rw [List.mem_cons, not_or] at hu
      rw [List.cons_append, splitFrom_cons_of_not_cut (by simp), if_neg (Ne.symm hu.1), ih hu.2]
      rfl
  refine ⟨?_, ?_⟩
  · rw [splitFrom, if_pos rfl, Bool.not_false, hopen v hv]
    rfl
  · rw [endsQuoted_cons, endsQuoted_append, endsQuoted_of_not_mem hv]
    rfl

end Split

end Text

end Routespec
