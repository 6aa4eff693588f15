import Routespec.Proofs.Checked
import Routespec.Proofs.PrintedJson

/-!
# Depth of what is read

No value that is read is nested more deeply than the reader goes, unless something in it stands for
no value. So whatever was read can be written and read again.
-/

namespace Routespec

namespace Json

open Value (depthOfItems depthOfMembers)

namespace Value

theorem depthOfItems_le {items : List Value} {n : Nat} :
    depthOfItems items ≤ n ↔ ∀ v ∈ items, v.depth ≤ n := by
  induction items with
  | nil => simp [depthOfItems]
  | cons v rest ih => rw [depthOfItems, Nat.max_le, ih, List.forall_mem_cons]

theorem depthOfMembers_le {members : List (String × Value)} {n : Nat} :
    depthOfMembers members ≤ n ↔ ∀ m ∈ members, m.2.depth ≤ n := by
  induction members with
  | nil => simp [depthOfMembers]
  | cons m rest ih => rw [depthOfMembers, Nat.max_le, ih, List.forall_mem_cons]

theorem areWellFormed_iff {items : List Value} :
    areWellFormed items = true ↔ ∀ v ∈ items, v.isWellFormed = true := by
  induction items with
  | nil => simp [areWellFormed]
  | cons v rest ih => rw [areWellFormed, Bool.and_eq_true, ih, List.forall_mem_cons]

theorem haveWellFormed_iff {members : List (String × Value)} :
    haveWellFormed members = true ↔ ∀ m ∈ members, m.2.isWellFormed = true := by
  induction members with
  | nil => simp [haveWellFormed]
  | cons m rest ih => rw [haveWellFormed, Bool.and_eq_true, ih, List.forall_mem_cons]

end Value

/-- A value that may be inside as many arrays and objects. Only what is no array or object may be
inside more of them than the reader counts. -/
def FitsInside (n : Nat) (v : Value) : Prop :=
  v.isWellFormed = true → n + v.depth ≤ max n maxDepth

/-- Everything that was read so far fits where it stands. -/
def FrameFits (n : Nat) : Frame → Prop
  | .array items => ∀ v ∈ items, FitsInside n v
  | .object members _ => ∀ m ∈ members, FitsInside n m.2

def StackFits : List Frame → Prop
  | [] => True
  | frame :: stack => FrameFits (stack.length + 1) frame ∧ StackFits stack

def State.Fits : State → Prop
  | .value stack _ => StackFits stack
  | .name members stack _ | .colon members _ stack | .member members stack =>
    StackFits (.object members none :: stack)
  | .item items stack => StackFits (.array items :: stack)
  | .done v => FitsInside 0 v

variable {stack : List Frame} {v : Value}

theorem fits_deliver (hv : FitsInside stack.length v) (h : StackFits stack) :
    (deliver v stack).Fits := by
  cases stack with
  | nil => exact hv
  | cons frame stack =>
    obtain ⟨hframe, hstack⟩ := h
    cases frame with
    | array items => exact ⟨List.forall_mem_cons.mpr ⟨hv, hframe⟩, hstack⟩
    | object members key => exact ⟨List.forall_mem_cons.mpr ⟨hv, hframe⟩, hstack⟩

theorem depth_of_scalar {token : Token} (h : token.scalar? = some v) : v.depth = 0 := by
  cases token with
  | null | bool =>
    obtain rfl := Option.some.inj h
    rfl
  | number n =>
    obtain rfl := Option.some.inj h
    cases n <;> rfl
  | string s =>
    obtain rfl := Option.some.inj h
    cases s <;> rfl
  | _ => cases h

theorem fitsInside_of_depth_eq_zero (h : v.depth = 0) (n : Nat) : FitsInside n v := by
  intro _
  omega

/-- An object has the values of its members, if all their names stand for names. -/
theorem objectOf_cases (members : Members) :
    (∃ named, objectOf members = .object named ∧ ∀ m ∈ named, ∃ x ∈ members, x.2 = m.2) ∨
      objectOf members = .malformed := by
  unfold objectOf
  split
  · rename_i named hnamed
    refine .inl ⟨named, rfl, fun m hm => ?_⟩
    obtain ⟨x, hx, hxm⟩ := forall₂_mem_right (forall₂_of_mapM hnamed) hm
    obtain ⟨key, -, rfl⟩ := Option.map_eq_some_iff.mp hxm
    exact ⟨x, List.mem_reverse.mp hx, rfl⟩
  · exact .inr rfl

/-- What fits inside an array or object fits with it, as long as that is not too deep. -/
theorem fitsInside_array {items : List Value} {n : Nat} (hn : n < maxDepth)
    (h : ∀ v ∈ items, FitsInside (n + 1) v) : FitsInside n (.array items) := by
  intro hwell
  have hitems : depthOfItems items ≤ maxDepth - (n + 1) :=
    Value.depthOfItems_le.mpr fun v hv => by
      have := h v hv (Value.areWellFormed_iff.mp hwell v hv)
      omega
  rw [Value.depth]
  omega

theorem fitsInside_object {members : List (String × Value)} {n : Nat} (hn : n < maxDepth)
    (h : ∀ m ∈ members, FitsInside (n + 1) m.2) : FitsInside n (.object members) := by
  intro hwell
  have hmembers : depthOfMembers members ≤ maxDepth - (n + 1) :=
    Value.depthOfMembers_le.mpr fun m hm => by
      have := h m hm (Value.haveWellFormed_iff.mp hwell m hm)
      omega
  rw [Value.depth]
  omega

theorem fitsInside_objectOf {members : Members} {n : Nat} (hn : n < maxDepth)
    (h : ∀ m ∈ members, FitsInside (n + 1) m.2) : FitsInside n (objectOf members) := by
  obtain ⟨named, hobject, hvalues⟩ | hmalformed := objectOf_cases members
  · rw [hobject]
    refine fitsInside_object hn fun m hm => ?_
    obtain ⟨x, hx, hxm⟩ := hvalues m hm
    exact hxm ▸ h x hx
  · rw [hmalformed]
    exact fitsInside_of_depth_eq_zero rfl n

theorem fits_close (hv : stack.length < maxDepth → FitsInside stack.length v)
    (h : StackFits stack) : (close v stack).Fits := by
  refine fits_deliver ?_ h
  split
  · exact hv ‹_›
  · exact fitsInside_of_depth_eq_zero rfl _

/-- Where a value may stand, an array ends only if it is open and empty. -/
theorem closed_of_step {mayClose : Bool} {s : State}
    (h : (State.value stack mayClose).step .closeArray = some s) :
    ∃ below, stack = .array [] :: below ∧ s = close (.array []) below := by
  rcases mayClose with _ | _
  · cases h
  · rcases stack with _ | ⟨⟨_ | _⟩ | _, below⟩
    case cons.array.nil => exact ⟨below, rfl, (Option.some.inj h).symm⟩
    all_goals cases h

theorem State.Fits.step {s s' : State} {token : Token} (h : s.Fits)
    (hstep : s.step token = some s') : s'.Fits := by
  cases s with
  | value stack mayClose =>
    have hscalar (h' : token.scalar?.map (deliver · stack) = some s') : s'.Fits := by
      obtain ⟨v, hv, rfl⟩ := Option.map_eq_some_iff.mp h'
      exact fits_deliver (fitsInside_of_depth_eq_zero (depth_of_scalar hv) _) h
    cases token with
    | openArray => exact Option.some.inj hstep ▸ ⟨nofun, h⟩
    | openObject => exact Option.some.inj hstep ▸ ⟨nofun, h⟩
    | closeArray =>
      obtain ⟨below, rfl, rfl⟩ := closed_of_step hstep
      exact fits_close (fun hn => fitsInside_array hn nofun) h.2
    | _ => exact hscalar hstep
  | name members stack mayClose =>
    cases token with
    | string name => exact Option.some.inj hstep ▸ h
    | closeObject =>
      rw [State.step] at hstep
      split at hstep
      · exact Option.some.inj hstep ▸ fits_close (fun hn => fitsInside_objectOf hn h.1) h.2
      · cases hstep
    | _ => cases hstep
  | colon members key stack =>
    cases token with
    | colon => exact Option.some.inj hstep ▸ h
    | _ => cases hstep
  | item items stack =>
    cases token with
    | comma => exact Option.some.inj hstep ▸ h
    | closeArray =>
      refine Option.some.inj hstep ▸ fits_close (fun hn => fitsInside_array hn fun v hv => ?_) h.2
      exact h.1 v (List.mem_reverse.mp hv)
    | _ => cases hstep
  | member members stack =>
    cases token with
    | comma => exact Option.some.inj hstep ▸ h
    | closeObject =>
      exact Option.some.inj hstep ▸ fits_close (fun hn => fitsInside_objectOf hn h.1) h.2
    | _ => cases hstep
  | done v => cases hstep

theorem State.Fits.run {s s' : State} {tokens : List Token} (h : s.Fits)
    (hrun : tokens.foldlM State.step s = some s') : s'.Fits := by
  induction tokens generalizing s with
  | nil => exact Option.some.inj hrun ▸ h
  | cons token rest ih =>
    rw [List.foldlM_cons] at hrun
    obtain ⟨s₁, hstep, hrest⟩ := Option.bind_eq_some_iff.mp hrun
    exact ih (h.step hstep) hrest

end Json

end Routespec
