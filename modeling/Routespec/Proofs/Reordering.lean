import Mathlib.Data.List.Perm.Basic
import Routespec.Proofs.Checked

/-!
# Lists reordered in part

The elements of one kind change places with each other, and all others follow one another as before.
Functions applied element by element keep this, and so do computations that may stop.
-/

namespace Routespec

variable {ε α β : Type}

/-- What a function makes of one kind of elements, if that kind is seen in the results. -/
theorem filter_filterMap_eq {p : α → Bool} {q : β → Bool} {g : α → Option β}
    (hg : ∀ x y, g x = some y → q y = p x) (xs : List α) :
    (xs.filterMap g).filter q = (xs.filter p).filterMap g := by
  rw [List.filter_filterMap, List.filterMap_filter]
  refine List.filterMap_congr fun x _ => ?_
  cases hx : g x with
  | none => simp
  | some y => simp [Option.filter_some, hg x y hx]

/-- The elements that `p` accepts may have changed places, and the others are in order. -/
structure Reordered (p : α → Bool) (xs ys : List α) : Prop where
  moved : (xs.filter p).Perm (ys.filter p)
  kept : xs.filter (!p ·) = ys.filter (!p ·)

namespace Reordered

variable {p : α → Bool} {q : β → Bool} {xs ys : List α}

theorem symm (h : Reordered p xs ys) : Reordered p ys xs := ⟨h.moved.symm, h.kept.symm⟩

theorem perm (h : Reordered p xs ys) : xs.Perm ys := by
  have hxs := List.filter_append_perm p xs
  have hys := List.filter_append_perm p ys
  rw [h.kept] at hxs
  exact hxs.symm.trans ((h.moved.append_right _).trans hys)

/-- What a test accepts is in order if nothing of it may change places. -/
theorem filter_eq (h : Reordered p xs ys) {r : α → Bool} (hr : ∀ x, r x = true → p x = false) :
    xs.filter r = ys.filter r := by
  have hkept (zs : List α) : (zs.filter (!p ·)).filter r = zs.filter r := by
    rw [List.filter_filter]
    refine List.filter_congr fun x _ => ?_
    cases hx : r x with
    | false => rfl
    | true => simp [hr x hx]
  rw [← hkept xs, h.kept, hkept]

theorem filterMap (h : Reordered p xs ys) {g : α → Option β}
    (hg : ∀ x y, g x = some y → q y = p x) : Reordered q (xs.filterMap g) (ys.filterMap g) := by
  have hothers : ∀ x y, g x = some y → (!q y) = !p x := fun x y hy => congrArg (!·) (hg x y hy)
  refine ⟨?_, ?_⟩
  · rw [filter_filterMap_eq hg, filter_filterMap_eq hg]
    exact h.moved.filterMap g
  · rw [filter_filterMap_eq hothers, filter_filterMap_eq hothers, h.kept]

theorem filter (h : Reordered p xs ys) (r : α → Bool) :
    Reordered p (xs.filter r) (ys.filter r) := by
  rw [← List.filterMap_eq_filter]
  refine h.filterMap fun x y hy => ?_
  obtain ⟨rfl, -⟩ : x = y ∧ r x = true := by simpa [Option.guard_eq_some_iff] using hy
  rfl

/-- A traversal does not depend on the order for its success. -/
theorem mapM (h : Reordered p xs ys) {f : α → Except ε β} (hf : ∀ x y, f x = .ok y → q y = p x)
    {xs' : List β} (hxs : xs.mapM f = .ok xs') :
    ∃ ys', ys.mapM f = .ok ys' ∧ Reordered q xs' ys' := by
  have hall : ∀ x ∈ ys, ∃ y, f x = .ok y := by
    intro x hx
    obtain ⟨y, -, hy⟩ := forall₂_mem_left (mapM_eq_ok.mp hxs) (h.perm.mem_iff.mpr hx)
    exact ⟨y, hy⟩
  obtain ⟨ys', hys⟩ := exists_mapM_eq_ok hall
  refine ⟨ys', hys, ?_⟩
  rw [eq_filterMap_of_mapM hxs, eq_filterMap_of_mapM hys]
  refine h.filterMap fun x y hy => hf x y ?_
  cases hx : f x with
  | error => simp [hx, Except.toOption] at hy
  | ok => simpa [hx, Except.toOption] using hy

end Reordered

/-- If each element makes one thing, a permuted list makes the same pairs in another order. -/
theorem forall₂_zip_perm {R : α → β → Prop} (hR : Relator.RightUnique R) {xs ys : List α}
    {as bs : List β} (hperm : xs.Perm ys) (hxs : List.Forall₂ R xs as)
    (hys : List.Forall₂ R ys bs) : (xs.zip as).Perm (ys.zip bs) := by
  have hpairs {zs : List α} {cs : List β} (h : List.Forall₂ R zs cs) :
      List.Forall₂ (fun x pair => pair.1 = x ∧ R x pair.2) zs (zs.zip cs) := by
    induction h with
    | nil => exact .nil
    | cons hxy _ ih => exact .cons ⟨rfl, hxy⟩ ih
  have hunique : Relator.RightUnique fun (x : α) (pair : α × β) => pair.1 = x ∧ R x pair.2 := by
    rintro x ⟨_, y⟩ ⟨_, z⟩ ⟨rfl, hy⟩ ⟨rfl, hz⟩
    exact Prod.ext rfl (hR hy hz)
  obtain ⟨pairs, hmoved, hsame⟩ := List.perm_comp_forall₂ hperm (hpairs hys)
  rwa [hunique.forall₂ (hpairs hxs) hmoved]

end Routespec
