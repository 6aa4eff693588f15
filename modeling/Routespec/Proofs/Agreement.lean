import Routespec.Proofs.Checked

/-!
# Computations that agree

Two computations agree if neither stops and their values are related, or if both stop with a fault
of the same kind. The texts of the two faults, and the directives they name, may differ.
-/

namespace Routespec

/-- Neither stops and the values are related, or both stop with a fault of the same kind. -/
def Agree {α β : Type} (R : α → β → Prop) : Diagnosed α → Diagnosed β → Prop
  | .ok a, .ok b => R a b
  | .error d, .error e => d.fault.kind = e.fault.kind
  | _, _ => False

variable {α β α' β' σ τ : Type} {R : α → β → Prop} {S : α' → β' → Prop}

theorem agree_pure {a : α} {b : β} (h : R a b) : Agree R (pure a) (pure b) := h

theorem Agree.bind {x : Diagnosed α} {y : Diagnosed β} {f : α → Diagnosed α'}
    {g : β → Diagnosed β'} (h : Agree R x y) (hf : ∀ a b, R a b → Agree S (f a) (g b)) :
    Agree S (x >>= f) (y >>= g) := by
  cases x with
  | error d =>
    cases y with
    | error e => exact h
    | ok b => exact h.elim
  | ok a =>
    cases y with
    | error e => exact h.elim
    | ok b => exact hf a b h

theorem Agree.map {x : Diagnosed α} {y : Diagnosed β} {f : α → α'} {g : β → β'}
    (h : Agree R x y) (hf : ∀ a b, R a b → S (f a) (g b)) : Agree S (x.map f) (y.map g) := by
  cases x with
  | error d =>
    cases y with
    | error e => exact h
    | ok b => exact h.elim
  | ok a =>
    cases y with
    | error e => exact h.elim
    | ok b => exact hf a b h

/-- Traversals agree if their steps do. -/
theorem Agree.mapM {xs : List α} {ys : List β} {f : α → Diagnosed α'} {g : β → Diagnosed β'}
    (hxs : List.Forall₂ R xs ys) (hf : ∀ x y, R x y → Agree S (f x) (g y)) :
    Agree (List.Forall₂ S) (xs.mapM f) (ys.mapM g) := by
  induction hxs with
  | nil => exact agree_pure .nil
  | cons hxy _ ih =>
    rw [List.mapM_cons, List.mapM_cons]
    refine (hf _ _ hxy).bind fun a b hab => ?_
    exact ih.bind fun as bs hrest => agree_pure (.cons hab hrest)

theorem Agree.foldlM {T : σ → τ → Prop} {f : σ → α → Diagnosed σ} {g : τ → α → Diagnosed τ}
    {xs : List α} {s : σ} {t : τ} (hs : T s t)
    (hf : ∀ s t x, T s t → Agree T (f s x) (g t x)) : Agree T (xs.foldlM f s) (xs.foldlM g t) := by
  induction xs generalizing s t with
  | nil => exact agree_pure hs
  | cons x xs ih =>
    rw [List.foldlM_cons, List.foldlM_cons]
    exact (hf s t x hs).bind fun s' t' hs' => ih hs'

/-- What a directive holds may stop with other texts, and the directive may be written otherwise. -/
theorem agree_at {owner owner' raw raw' : String} {x y : Checked α}
    (h : x.mapError Fault.kind = y.mapError Fault.kind) :
    Agree Eq (Checked.at owner raw x) (Checked.at owner' raw' y) := by
  cases x with
  | error f =>
    cases y with
    | error f' => exact Except.error.inj h
    | ok b => cases h
  | ok a =>
    cases y with
    | error f' => cases h
    | ok b => exact Except.ok.inj h

/-- The same fault may be met in another directive. -/
theorem agree_at_self {owner owner' raw raw' : String} {x : Checked α} :
    Agree Eq (Checked.at owner raw x) (Checked.at owner' raw' x) :=
  agree_at rfl

theorem agree_fail {owner owner' raw raw' : String} {c c' : Cause} (h : c.kind = c'.kind) :
    Agree R (Checked.at owner raw (fail c)) (Checked.at owner' raw' (fail c')) := h

/-- Computations that agree on equal values stop alike or have the same value. -/
theorem Agree.cases {x y : Diagnosed α} (h : Agree Eq x y) :
    (∃ a, x = .ok a ∧ y = .ok a) ∨
      ∃ d e, x = .error d ∧ y = .error e ∧ d.fault.kind = e.fault.kind := by
  cases x with
  | error d =>
    cases y with
    | error e => exact .inr ⟨d, e, rfl, rfl, h⟩
    | ok b => exact h.elim
  | ok a =>
    cases y with
    | error e => exact h.elim
    | ok b =>
      obtain rfl : a = b := h
      exact .inl ⟨a, rfl, rfl⟩

end Routespec
