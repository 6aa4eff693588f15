import Routespec.Proofs.Checked

/-!
# Computations that stop

What is known of the fault that a computation stops with, if it stops. It is put together from what
is known of the parts of the computation.
-/

namespace Routespec

/-- If the computation stops, then with something that satisfies `P`. -/
def StopsWith {ε α : Type} (P : ε → Prop) (x : Except ε α) : Prop := ∀ e, x = .error e → P e

section Except

variable {ε α β σ : Type} {P : ε → Prop}

@[simp]
theorem stopsWith_ok {a : α} : StopsWith P (.ok a : Except ε α) := by
  intro e h
  cases h

@[simp]
theorem stopsWith_pure {a : α} : StopsWith P (pure a : Except ε α) := stopsWith_ok

@[simp]
theorem stopsWith_error {e : ε} : StopsWith P (.error e : Except ε α) ↔ P e := by
  simp [StopsWith]

@[simp]
theorem stopsWith_map {x : Except ε α} {f : α → β} :
    StopsWith P (x.map f) ↔ StopsWith P x := by
  cases x <;> simp [StopsWith, Except.map]

/-- A sequence of two computations stops with what one of them does. -/
theorem stopsWith_bind {x : Except ε α} {f : α → Except ε β} :
    StopsWith P (x >>= f) ↔ StopsWith P x ∧ ∀ a, x = .ok a → StopsWith P (f a) := by
  cases x <;> simp [StopsWith, bind, Except.bind]

theorem StopsWith.bind {x : Except ε α} {f : α → Except ε β} (hx : StopsWith P x)
    (hf : ∀ a, StopsWith P (f a)) : StopsWith P (x >>= f) :=
  stopsWith_bind.mpr ⟨hx, fun a _ => hf a⟩

/-- A traversal stops with what one of its steps does. -/
theorem StopsWith.mapM {f : α → Except ε β} {xs : List α} (h : ∀ x ∈ xs, StopsWith P (f x)) :
    StopsWith P (xs.mapM f) := by
  induction xs with
  | nil => exact stopsWith_pure
  | cons x xs ih =>
    rw [List.forall_mem_cons] at h
    rw [List.mapM_cons]
    exact h.1.bind fun y => (ih h.2).bind fun ys => stopsWith_pure

theorem StopsWith.foldlM {f : σ → α → Except ε σ} {xs : List α} {s : σ}
    (h : ∀ t, ∀ x ∈ xs, StopsWith P (f t x)) : StopsWith P (xs.foldlM f s) := by
  induction xs generalizing s with
  | nil => exact stopsWith_pure
  | cons x xs ih =>
    rw [List.foldlM_cons]
    exact (h s x List.mem_cons_self).bind fun t =>
      ih fun t y hy => h t y (List.mem_cons_of_mem _ hy)

theorem StopsWith.mono {Q : ε → Prop} {x : Except ε α} (h : StopsWith P x)
    (hPQ : ∀ e, P e → Q e) : StopsWith Q x :=
  fun e he => hPQ e (h e he)

end Except

section Faults

variable {α : Type} {P : Fault → Prop}

@[simp]
theorem stopsWith_fail {c : Cause} : StopsWith P (fail c : Checked α) ↔ P c.fault :=
  stopsWith_error

@[simp]
theorem stopsWith_within {place : Place} {x : Checked α} :
    StopsWith P (Checked.within place x) ↔ StopsWith (fun f => P (f.within place)) x := by
  cases x <;> simp [StopsWith, Checked.within, Except.mapError]

@[simp]
theorem stopsWith_at {owner directive : String} {x : Checked α} {P : Diagnostic → Prop} :
    StopsWith P (Checked.at owner directive x) ↔
      StopsWith (fun f => P ⟨owner, directive, f⟩) x := by
  cases x <;> simp [StopsWith, Checked.at, Except.mapError]

theorem StopsWith.updateFirst {p : α → Bool} {f : α → Checked α} {xs : List α}
    (h : ∀ x ∈ xs, StopsWith P (f x)) : StopsWith P (updateFirst p f xs) := by
  induction xs with
  | nil => exact stopsWith_ok
  | cons x xs ih =>
    rw [List.forall_mem_cons] at h
    rw [Routespec.updateFirst]
    split
    · exact stopsWith_map.mpr h.1
    · exact stopsWith_map.mpr (ih h.2)

end Faults

end Routespec
