import Mathlib.Data.List.Forall2
import Mathlib.Data.List.Nodup
import Mathlib.Data.List.ReduceOption
import Routespec.Plan.PathVariable

/-!
# Computations that succeed

A computation that may stop is taken apart here: what has to have succeeded for the whole to
succeed, and what its value then is. Traversals of lists become relations between the list and its
results, position by position.
-/

namespace Routespec

section Except

variable {ε ε' α β σ : Type}

theorem bind_eq_ok {x : Except ε α} {f : α → Except ε β} {b : β} :
    x >>= f = .ok b ↔ ∃ a, x = .ok a ∧ f a = .ok b := by
  cases x <;> simp [bind, Except.bind]

theorem bind_eq_error {x : Except ε α} {f : α → Except ε β} {e : ε} :
    x >>= f = .error e ↔ x = .error e ∨ ∃ a, x = .ok a ∧ f a = .error e := by
  cases x <;> simp [bind, Except.bind]

theorem map_eq_ok {x : Except ε α} {f : α → β} {b : β} :
    x.map f = .ok b ↔ ∃ a, x = .ok a ∧ f a = b := by
  cases x <;> simp [Except.map]

@[simp]
theorem pure_eq_ok {a b : α} : (pure a : Except ε α) = .ok b ↔ a = b := by
  simp [pure, Except.pure]

theorem map_eq_error {x : Except ε α} {f : α → β} {e : ε} :
    x.map f = .error e ↔ x = .error e := by
  cases x <;> simp [Except.map]

theorem map_nil_append (x : Except ε (List α)) : x.map ([] ++ ·) = x := by
  cases x <;> rfl

theorem ok_of_toOption {x : Except ε α} {a : α} (h : x.toOption = some a) : x = .ok a := by
  cases x with
  | error => cases h
  | ok a' => exact congrArg Except.ok (Option.some.inj h)

/-- A computation with something known of its value has one. -/
theorem exists_ok_of_map {x : Except ε α} {f : α → β} {b : β} (h : x.toOption.map f = some b) :
    ∃ a, x = .ok a ∧ f a = b := by
  cases x with
  | error => cases h
  | ok a => exact ⟨a, rfl, Option.some.inj h⟩

/-- A traversal succeeds when every element does, and lists their values. -/
theorem mapM_eq_ok {f : α → Except ε β} {xs : List α} {ys : List β} :
    xs.mapM f = .ok ys ↔ List.Forall₂ (fun x y => f x = .ok y) xs ys := by
  induction xs generalizing ys with
  | nil => cases ys <;> simp
  | cons x xs ih =>
    rw [List.mapM_cons, bind_eq_ok, List.forall₂_cons_left_iff]
    constructor
    · rintro ⟨y, hy, h⟩
      obtain ⟨rest, hrest, h⟩ := bind_eq_ok.mp h
      exact ⟨y, rest, hy, ih.mp hrest, (pure_eq_ok.mp h).symm⟩
    · rintro ⟨y, rest, hy, hrest, rfl⟩
      exact ⟨y, hy, bind_eq_ok.mpr ⟨rest, ih.mpr hrest, rfl⟩⟩

/-- A traversal by a function that succeeds where `P` holds, and is `g` there. -/
theorem mapM_eq_ok_map {f : α → Except ε β} {g : α → β} {P : α → Prop}
    (hf : ∀ x y, f x = .ok y ↔ P x ∧ y = g x) {xs : List α} {ys : List β} :
    xs.mapM f = .ok ys ↔ (∀ x ∈ xs, P x) ∧ ys = xs.map g := by
  rw [mapM_eq_ok]
  simp only [hf]
  rw [List.forall₂_and_left, eq_comm (a := ys), ← List.forall₂_eq_eq_eq, List.forall₂_map_left_iff]
  simp only [eq_comm]

/-- What a traversal finds is found at its elements. -/
theorem forall₂_of_mapM {f : α → Option β} {xs : List α} {ys : List β}
    (h : xs.mapM f = some ys) : List.Forall₂ (fun x y => f x = some y) xs ys := by
  induction xs generalizing ys with
  | nil =>
    obtain rfl := Option.some.inj h
    exact .nil
  | cons x xs ih =>
    simp only [List.mapM_cons, Option.bind_eq_bind, Option.bind_eq_some_iff] at h
    obtain ⟨y, hy, rest, hrest, hcons⟩ := h
    obtain rfl := Option.some.inj hcons
    exact .cons hy (ih hrest)

/-- A traversal succeeds if every element does. -/
theorem exists_mapM_eq_ok {f : α → Except ε β} {xs : List α} (h : ∀ x ∈ xs, ∃ y, f x = .ok y) :
    ∃ ys, xs.mapM f = .ok ys := by
  induction xs with
  | nil => exact ⟨[], rfl⟩
  | cons x xs ih =>
    rw [List.forall_mem_cons] at h
    obtain ⟨y, hy⟩ := h.1
    obtain ⟨ys, hys⟩ := ih h.2
    exact ⟨y :: ys, mapM_eq_ok.mpr (.cons hy (mapM_eq_ok.mp hys))⟩

/-- A traversal stops at the first element that stops it. -/
theorem mapM_eq_error {f : α → Except ε β} {xs : List α} {e : ε} :
    xs.mapM f = .error e ↔ ∃ before x after, xs = before ++ x :: after ∧
      (∀ y ∈ before, ∃ z, f y = .ok z) ∧ f x = .error e := by
  constructor
  · intro h
    induction xs with
    | nil => cases h
    | cons x xs ih =>
      rw [List.mapM_cons] at h
      obtain hx | ⟨y, hx, h⟩ := bind_eq_error.mp h
      · exact ⟨[], x, xs, rfl, by simp, hx⟩
      · obtain hrest | ⟨_, _, h⟩ := bind_eq_error.mp h
        · obtain ⟨before, z, after, rfl, hbefore, hz⟩ := ih hrest
          exact ⟨x :: before, z, after, rfl, List.forall_mem_cons.mpr ⟨⟨y, hx⟩, hbefore⟩, hz⟩
        · cases h
  · rintro ⟨before, x, after, rfl, hbefore, hx⟩
    obtain ⟨ys, hys⟩ := exists_mapM_eq_ok hbefore
    rw [List.mapM_append, hys, List.mapM_cons, hx]
    rfl

/-- A second traversal succeeds where each of its steps does after that of the first one. -/
theorem exists_mapM_related {γ : Type} {R : β → γ → Prop} {f : α → Except ε β}
    {g : α → Except ε γ} {xs : List α} {ys : List β} (h : xs.mapM f = .ok ys)
    (hg : ∀ x y, x ∈ xs → y ∈ ys → f x = .ok y → ∃ z, g x = .ok z ∧ R y z) :
    ∃ zs, xs.mapM g = .ok zs ∧ List.Forall₂ R ys zs := by
  rw [mapM_eq_ok] at h
  induction h with
  | nil => exact ⟨[], rfl, .nil⟩
  | @cons x y xs ys hxy _ ih =>
    obtain ⟨z, hz, hyz⟩ := hg x y List.mem_cons_self List.mem_cons_self hxy
    obtain ⟨zs, hzs, hrest⟩ := ih fun x y hx hy =>
      hg x y (List.mem_cons_of_mem _ hx) (List.mem_cons_of_mem _ hy)
    exact ⟨z :: zs, mapM_eq_ok.mpr (.cons hz (mapM_eq_ok.mp hzs)), .cons hyz hrest⟩

theorem eq_filterMap_of_mapM {f : α → Except ε β} {xs : List α} {ys : List β}
    (h : xs.mapM f = .ok ys) : ys = xs.filterMap fun x => (f x).toOption := by
  rw [mapM_eq_ok] at h
  induction h with
  | nil => rfl
  | cons hx _ ih =>
    rw [List.filterMap_cons, hx, ← ih]
    rfl

theorem foldlM_cons_eq_ok {f : σ → α → Except ε σ} {x : α} {xs : List α} {s t : σ} :
    (x :: xs).foldlM f s = .ok t ↔ ∃ s', f s x = .ok s' ∧ xs.foldlM f s' = .ok t := by
  rw [List.foldlM_cons, bind_eq_ok]

/-- A run of steps goes with a map that each of its steps goes with. -/
theorem foldlM_map_comm {f : σ → α → Except ε σ} {g : σ → σ} {xs : List α}
    (h : ∀ s, ∀ x ∈ xs, f (g s) x = (f s x).map g) (s : σ) :
    xs.foldlM f (g s) = (xs.foldlM f s).map g := by
  induction xs generalizing s with
  | nil => rfl
  | cons x xs ih =>
    rw [List.foldlM_cons, List.foldlM_cons, h s x List.mem_cons_self]
    cases f s x with
    | error => rfl
    | ok s => exact ih (fun s x hx => h s x (List.mem_cons_of_mem _ hx)) s

/-- What follows a computation may depend on its value through a view only. -/
theorem bind_congr_of_map {g : α → σ} {x y : Except ε α} {k : α → Except ε β}
    (h : x.map g = y.map g) (hk : ∀ a b, g a = g b → k a = k b) : x >>= k = y >>= k := by
  cases x with
  | error e =>
    cases y with
    | error e' => exact congrArg Except.error (Except.error.inj h)
    | ok b => cases h
  | ok a =>
    cases y with
    | error e' => cases h
    | ok b => exact hk a b (Except.ok.inj h)

/-- States that look alike do so after a run of steps, if each step keeps them alike. -/
theorem foldlM_map_congr {f : σ → α → Except ε σ} {g : σ → β}
    (h : ∀ s t x, g s = g t → (f s x).map g = (f t x).map g) (xs : List α) {s t : σ}
    (hst : g s = g t) : (xs.foldlM f s).map g = (xs.foldlM f t).map g := by
  induction xs generalizing s t with
  | nil => exact congrArg Except.ok hst
  | cons x xs ih =>
    have hbind (y : Except ε σ) :
        (y >>= xs.foldlM f).map g = y >>= fun s => (xs.foldlM f s).map g := by
      cases y <;> rfl
    rw [List.foldlM_cons, List.foldlM_cons, hbind, hbind]
    exact bind_congr_of_map (h s t x hst) fun _ _ => ih

end Except

section Faults

variable {α : Type}

@[simp]
theorem fail_ne_ok {c : Cause} {a : α} : (fail c : Checked α) ≠ .ok a := by
  simp [fail]

@[simp]
theorem within_eq_ok {place : Place} {x : Checked α} {a : α} :
    Checked.within place x = .ok a ↔ x = .ok a := by
  cases x <;> simp [Checked.within, Except.mapError]

@[simp]
theorem at_eq_ok {owner directive : String} {x : Checked α} {a : α} :
    Checked.at owner directive x = .ok a ↔ x = .ok a := by
  cases x <;> simp [Checked.at, Except.mapError]

@[simp]
theorem checkFits_eq_ok {shape : Shape} {location : Location} {u : Unit} :
    shape.checkFits location = .ok u ↔ shape.fits location = true := by
  unfold Shape.checkFits
  split <;> simp_all

/-- What only depends on a value that fits its place. -/
theorem map_checkFits_eq_ok {place : Place} {shape : Shape} {location : Location} {a b : α} :
    (Checked.within place (shape.checkFits location)).map (fun _ => a) = .ok b ↔
      shape.fits location = true ∧ b = a := by
  rw [map_eq_ok]
  constructor
  · rintro ⟨_, hfits, rfl⟩
    exact ⟨checkFits_eq_ok.mp (within_eq_ok.mp hfits), rfl⟩
  · rintro ⟨hfits, rfl⟩
    exact ⟨(), within_eq_ok.mpr (checkFits_eq_ok.mpr hfits), rfl⟩

end Faults

section Lists

variable {α β : Type}

/-- Changing the first accepted element of a list that has one. -/
theorem updateFirst_of_any {p : α → Bool} {f : α → Checked α} {xs ys : List α}
    (hany : xs.any p = true) (h : updateFirst p f xs = .ok ys) :
    ∃ i x y, xs.findIdx? p = some i ∧ xs[i]? = some x ∧ p x = true ∧ f x = .ok y ∧
      ys = xs.set i y := by
  induction xs generalizing ys with
  | nil => simp at hany
  | cons a xs ih =>
    rw [updateFirst] at h
    rw [List.findIdx?_cons]
    by_cases ha : p a = true
    · rw [if_pos ha] at h
      obtain ⟨y, hy, rfl⟩ := map_eq_ok.mp h
      exact ⟨0, a, y, by rw [if_pos ha], rfl, ha, hy, rfl⟩
    · rw [if_neg ha] at h
      obtain ⟨rest, hrest, rfl⟩ := map_eq_ok.mp h
      obtain ⟨i, x, y, hi, hx, hp, hy, rfl⟩ := ih (by simpa [ha] using hany) hrest
      exact ⟨i + 1, x, y, by simp [ha, hi], by simpa using hx, hp, hy, rfl⟩

/-- Changing the first element goes with a map that the change and the choice of the element do not
notice. -/
theorem updateFirst_map {α : Type} {p : α → Bool} {f : α → Checked α} {g : α → α}
    (hp : ∀ x, p (g x) = p x) (hf : ∀ x, f (g x) = (f x).map g) (xs : List α) :
    updateFirst p f (xs.map g) = (updateFirst p f xs).map (List.map g) := by
  induction xs with
  | nil => rfl
  | cons x xs ih =>
    rw [List.map_cons, updateFirst, updateFirst, hp]
    split
    · rw [hf]
      cases f x <;> rfl
    · rw [ih]
      cases updateFirst p f xs <;> rfl

/-- A list and its update are related if the element and its update are. -/
theorem forall₂_set {R : α → α → Prop} (hR : ∀ x, R x x) {xs : List α} {i : Nat} {x y : α}
    (hx : xs[i]? = some x) (hxy : R x y) : List.Forall₂ R xs (xs.set i y) := by
  induction xs generalizing i with
  | nil => exact .nil
  | cons a xs ih =>
    cases i with
    | zero =>
      obtain rfl : a = x := by simpa using hx
      exact .cons hxy (List.forall₂_same.mpr fun z _ => hR z)
    | succ i => exact .cons (hR a) (ih (by simpa using hx))

theorem forall₂_trans {γ : Type} {R : α → β → Prop} {S : β → γ → Prop} {T : α → γ → Prop}
    (hT : ∀ x y z, R x y → S y z → T x z) {xs : List α} {ys : List β} {zs : List γ}
    (h : List.Forall₂ R xs ys) (h' : List.Forall₂ S ys zs) : List.Forall₂ T xs zs := by
  induction h generalizing zs with
  | nil =>
    cases h'
    exact .nil
  | cons hr _ ih =>
    cases h' with
    | cons hs hrest => exact .cons (hT _ _ _ hr hs) (ih hrest)

theorem forall₂_append_left {R : α → β → Prop} {xs xs' : List α} {ys : List β}
    (h : List.Forall₂ R (xs ++ xs') ys) :
    ∃ zs zs', ys = zs ++ zs' ∧ List.Forall₂ R xs zs ∧ List.Forall₂ R xs' zs' := by
  induction xs generalizing ys with
  | nil => exact ⟨[], ys, rfl, .nil, h⟩
  | cons x xs ih =>
    obtain ⟨y, rest, hxy, hrest, rfl⟩ := List.forall₂_cons_left_iff.mp h
    obtain ⟨zs, zs', rfl, hzs, hzs'⟩ := ih hrest
    exact ⟨y :: zs, zs', rfl, .cons hxy hzs, hzs'⟩

theorem forall₂_filter {R : α → β → Prop} {p : α → Bool} {q : β → Bool}
    (hpq : ∀ x y, R x y → q y = p x) {xs : List α} {ys : List β} (h : List.Forall₂ R xs ys) :
    List.Forall₂ R (xs.filter p) (ys.filter q) := by
  induction h with
  | nil => exact .nil
  | @cons x y _ _ hxy _ ih =>
    by_cases hx : p x = true
    · rw [List.filter_cons_of_pos hx, List.filter_cons_of_pos ((hpq x y hxy).trans hx)]
      exact .cons hxy ih
    · rw [List.filter_cons_of_neg hx, List.filter_cons_of_neg (by rwa [hpq x y hxy])]
      exact ih

theorem forall₂_getElem? {R : α → β → Prop} {xs : List α} {ys : List β}
    (h : List.Forall₂ R xs ys) {i : Nat} {x : α} (hx : xs[i]? = some x) :
    ∃ y, ys[i]? = some y ∧ R x y := by
  induction h generalizing i with
  | nil => simp at hx
  | cons hr _ ih =>
    cases i with
    | zero =>
      obtain rfl : _ = x := by simpa using hx
      exact ⟨_, rfl, hr⟩
    | succ i => exact ih (by simpa using hx)

theorem forall₂_mem_left {R : α → β → Prop} {xs : List α} {ys : List β}
    (h : List.Forall₂ R xs ys) {x : α} (hx : x ∈ xs) : ∃ y ∈ ys, R x y := by
  obtain ⟨i, hi⟩ := List.mem_iff_getElem?.mp hx
  obtain ⟨y, hy, hr⟩ := forall₂_getElem? h hi
  exact ⟨y, List.mem_of_getElem? hy, hr⟩

theorem forall₂_mem_right {R : α → β → Prop} {xs : List α} {ys : List β}
    (h : List.Forall₂ R xs ys) {y : β} (hy : y ∈ ys) : ∃ x ∈ xs, R x y :=
  forall₂_mem_left h.flip hy

/-- If what starts a list is related to what starts another one, as are lists that go on in another
way, then the elements at which they part are related to one and the same. -/
theorem exists_common_of_forall₂ {R : α → β → Prop} {init : List α} {x x' : α} {xs : List α}
    {ys zs : List β} (h : List.Forall₂ R (init ++ [x]) ys)
    (h' : List.Forall₂ R (init ++ x' :: xs) (ys ++ zs)) : ∃ y, R x y ∧ R x' y := by
  obtain ⟨y, hy, hxy⟩ := forall₂_getElem? h (List.getElem?_concat_length)
  have hx' : (init ++ x' :: xs)[init.length]? = some x' := by simp
  obtain ⟨y', hy', hxy'⟩ := forall₂_getElem? h' hx'
  obtain ⟨hlt, -⟩ := List.getElem?_eq_some_iff.mp hy
  rw [List.getElem?_append_left hlt, hy] at hy'
  exact ⟨y, hxy, Option.some.inj hy' ▸ hxy'⟩

/-- Replacing elements that a filter leaves out, none of them by one that it keeps. -/
theorem filter_map_of_fixed {p : α → Bool} {g : α → α} {xs : List α}
    (hp : ∀ x ∈ xs, p (g x) = p x) (hg : ∀ x ∈ xs, p x = true → g x = x) :
    (xs.map g).filter p = xs.filter p := by
  induction xs with
  | nil => rfl
  | cons x xs ih =>
    rw [List.forall_mem_cons] at hp hg
    rw [List.map_cons, List.filter_cons, List.filter_cons, hp.1, ih hp.2 hg.2]
    cases hx : p x with
    | false => rfl
    | true => rw [hg.1 hx]

/-- A key that no other element has finds its element. -/
theorem find?_eq_some_of_nodup [DecidableEq β] {f : α → β} {xs : List α}
    (hnodup : (xs.map f).Nodup) {x : α} (hx : x ∈ xs) :
    xs.find? (fun y => decide (f y = f x)) = some x := by
  cases hy : xs.find? fun y => decide (f y = f x) with
  | none => simpa using List.find?_eq_none.mp hy x hx
  | some y =>
    have hkey : f y = f x := by simpa using List.find?_some hy
    rw [List.inj_on_of_nodup_map hnodup (List.mem_of_find?_eq_some hy) hx hkey]

end Lists

end Routespec
