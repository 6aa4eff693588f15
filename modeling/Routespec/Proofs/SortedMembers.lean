import Mathlib.Data.Option.Basic
import Routespec.Fixtures
import Routespec.Proofs.Checked
import Routespec.Proofs.ReaderDepth

/-!
# Sorted members

Sorting the members of an object leaves one member for each name, the last one that was written,
in order of the names. Fixtures are such members.
-/

namespace Routespec

namespace Json

namespace Value

variable {members : List (String × Value)} {m : String × Value}

/-- Members of different names, in order of their names. -/
def InOrder (members : List (String × Value)) : Prop := members.Pairwise (·.1 < ·.1)

theorem lookup_cons_eq_if (m : String × Value) (rest : List (String × Value)) (name : String) :
    (m :: rest).lookup name = if name = m.1 then some m.2 else rest.lookup name := by
  rw [List.lookup_cons]
  by_cases h : name = m.1
  · rw [beq_iff_eq.mpr h, if_pos h]
  · rw [beq_false_of_ne h, if_neg h]

/-- A member that is put in its place takes that of the member of its name. -/
theorem lookup_insert (list : List (String × Value)) (m : String × Value) (name : String) :
    (sortMembers.insert list m).lookup name =
      if name = m.1 then some m.2 else list.lookup name := by
  induction list with
  | nil => exact lookup_cons_eq_if m [] name
  | cons first rest ih =>
    rw [sortMembers.insert]
    split
    · exact lookup_cons_eq_if m (first :: rest) name
    · split
      · rename_i hsame
        rw [lookup_cons_eq_if, lookup_cons_eq_if, ← hsame]
        split <;> rfl
      · rename_i hother
        rw [lookup_cons_eq_if, lookup_cons_eq_if, ih]
        by_cases h : name = m.1
        · rw [if_pos h, if_pos h, if_neg (h ▸ hother)]
        · rw [if_neg h, if_neg h]

theorem mem_of_mem_insert {list : List (String × Value)} {x : String × Value}
    (h : x ∈ sortMembers.insert list m) : x = m ∨ x ∈ list := by
  induction list with
  | nil =>
    rw [sortMembers.insert, List.mem_singleton] at h
    exact .inl h
  | cons first rest ih =>
    rw [sortMembers.insert] at h
    split at h
    · exact List.mem_cons.mp h
    · split at h
      · exact (List.mem_cons.mp h).imp_right (List.mem_cons_of_mem _)
      · rcases List.mem_cons.mp h with rfl | h
        · exact .inr List.mem_cons_self
        · exact (ih h).imp_right (List.mem_cons_of_mem _)

theorem InOrder.insert {list : List (String × Value)} (h : InOrder list) (m : String × Value) :
    InOrder (sortMembers.insert list m) := by
  induction list with
  | nil => exact List.pairwise_singleton _ m
  | cons first rest ih =>
    obtain ⟨hfirst, hrest⟩ := List.pairwise_cons.mp h
    rw [sortMembers.insert]
    split
    · rename_i hlt
      refine List.pairwise_cons.mpr ⟨fun x hx => ?_, h⟩
      rcases List.mem_cons.mp hx with rfl | hx
      · exact hlt
      · exact String.lt_trans hlt (hfirst x hx)
    · rename_i hnlt
      split
      · rename_i hsame
        exact List.pairwise_cons.mpr ⟨fun x hx => hsame ▸ hfirst x hx, hrest⟩
      · rename_i hother
        refine List.pairwise_cons.mpr ⟨fun x hx => ?_, ih hrest⟩
        rcases mem_of_mem_insert hx with rfl | hx
        · exact Std.lt_of_le_of_ne (String.not_lt.mp hnlt) (Ne.symm hother)
        · exact hfirst x hx

theorem inOrder_sortMembers (members : List (String × Value)) : InOrder (sortMembers members) := by
  have hfold (list : List (String × Value)) (h : InOrder list) :
      InOrder (members.foldl sortMembers.insert list) := by
    induction members generalizing list with
    | nil => exact h
    | cons m rest ih => exact ih _ (h.insert m)
  exact hfold [] .nil

/-- Of the members of one name, the last one counts. -/
theorem lookup_sortMembers (members : List (String × Value)) (name : String) :
    (sortMembers members).lookup name = members.reverse.lookup name := by
  have hfold (list : List (String × Value)) :
      (members.foldl sortMembers.insert list).lookup name =
        (members.reverse ++ list).lookup name := by
    induction members generalizing list with
    | nil => rfl
    | cons m rest ih =>
      rw [List.foldl_cons, ih, List.reverse_cons, List.append_assoc, List.lookup_append,
        List.lookup_append, lookup_insert, List.singleton_append, lookup_cons_eq_if]
  rw [sortMembers, hfold, List.append_nil]

theorem mem_of_mem_sortMembers : m ∈ sortMembers members → m ∈ members := by
  have hfold (list : List (String × Value)) (h : m ∈ members.foldl sortMembers.insert list) :
      m ∈ members ∨ m ∈ list := by
    induction members generalizing list with
    | nil => exact .inr h
    | cons first rest ih =>
      rcases ih _ h with hrest | hinsert
      · exact .inl (List.mem_cons_of_mem _ hrest)
      · rcases mem_of_mem_insert hinsert with rfl | hlist
        · exact .inl List.mem_cons_self
        · exact .inr hlist
  exact fun h => (hfold [] h).resolve_right List.not_mem_nil

theorem sortedMembers_eq_map (members : List (String × Value)) :
    sortedMembers members = members.map fun m => (m.1, m.2.sorted) := by
  induction members with
  | nil => rfl
  | cons m rest ih => rw [sortedMembers, ih, List.map_cons]

theorem lookup_map_values (f : Value → Value) (members : List (String × Value)) (name : String) :
    (members.map fun m => (m.1, f m.2)).lookup name = (members.lookup name).map f := by
  induction members with
  | nil => rfl
  | cons m rest ih =>
    rw [List.map_cons, lookup_cons_eq_if, lookup_cons_eq_if, ih]
    split <;> rfl

/-- The members of a sorted object are the last ones of each name, sorted. -/
theorem lookup_sorted (members : List (String × Value)) (name : String) :
    (sortMembers (sortedMembers members)).lookup name =
      (members.reverse.lookup name).map sorted := by
  rw [lookup_sortMembers, sortedMembers_eq_map, ← List.map_reverse, lookup_map_values]

/-- The second value is the first one with the members of every object in order and one for each
name, the last that was written. -/
inductive Sorts : Value → Value → Prop
  | null : Sorts .null .null
  | bool (b : Bool) : Sorts (.bool b) (.bool b)
  | number (n : Number) : Sorts (.number n) (.number n)
  | string (s : String) : Sorts (.string s) (.string s)
  | malformed : Sorts .malformed .malformed
  | array {items sorted : List Value} (h : List.Forall₂ Sorts items sorted) :
    Sorts (.array items) (.array sorted)
  | object {members sorted : List (String × Value)} (inOrder : InOrder sorted)
    (names : ∀ name, sorted.lookup name = none ↔ members.reverse.lookup name = none)
    (last : ∀ name v w, members.reverse.lookup name = some v → sorted.lookup name = some w →
      Sorts v w) :
    Sorts (.object members) (.object sorted)

mutual

theorem sorts_sorted (v : Value) : Sorts v v.sorted := by
  cases v with
  | null => exact .null
  | bool b => exact .bool b
  | number n => exact .number n
  | string s => exact .string s
  | malformed => exact .malformed
  | array items => exact .array (sorts_sortedItems items)
  | object members =>
    refine .object (inOrder_sortMembers _) (fun name => ?_) fun name v w hv hw => ?_
    · rw [lookup_sorted, Option.map_eq_none_iff]
    · rw [lookup_sorted, hv] at hw
      obtain ⟨before, after, hmembers, -⟩ := List.lookup_eq_some_iff.mp hv
      have hmem : (name, v) ∈ members := List.mem_reverse.mp (hmembers ▸ List.mem_append_cons_self)
      exact Option.some.inj hw ▸ sorts_of_mem members (name, v) hmem

theorem sorts_sortedItems (items : List Value) : List.Forall₂ Sorts items (sortedItems items) := by
  cases items with
  | nil => exact .nil
  | cons v rest => exact .cons (sorts_sorted v) (sorts_sortedItems rest)

theorem sorts_of_mem (members : List (String × Value)) : ∀ m ∈ members, Sorts m.2 m.2.sorted := by
  cases members with
  | nil => nofun
  | cons m rest => exact List.forall_mem_cons.mpr ⟨sorts_sorted m.2, sorts_of_mem rest⟩

end

theorem depthOfMembers_sortMembers_le (members : List (String × Value)) :
    depthOfMembers (sortMembers members) ≤ depthOfMembers members :=
  depthOfMembers_le.mpr fun m hm =>
    depthOfMembers_le.mp (Nat.le_refl _) m (mem_of_mem_sortMembers hm)

mutual

theorem depth_sorted_le (v : Value) : v.sorted.depth ≤ v.depth := by
  cases v with
  | null | bool | number | string | malformed => exact Nat.le_refl _
  | array items => exact Nat.succ_le_succ (depthOfItems_sorted_le items)
  | object members =>
    exact Nat.succ_le_succ (Nat.le_trans (depthOfMembers_sortMembers_le _)
      (depthOfMembers_sorted_le members))

theorem depthOfItems_sorted_le (items : List Value) :
    depthOfItems (sortedItems items) ≤ depthOfItems items := by
  cases items with
  | nil => exact Nat.le_refl _
  | cons v rest =>
    have hv := depth_sorted_le v
    have hrest := depthOfItems_sorted_le rest
    simp only [sortedItems, depthOfItems]
    omega

theorem depthOfMembers_sorted_le (members : List (String × Value)) :
    depthOfMembers (sortedMembers members) ≤ depthOfMembers members := by
  cases members with
  | nil => exact Nat.le_refl _
  | cons m rest =>
    have hm := depth_sorted_le m.2
    have hrest := depthOfMembers_sorted_le rest
    simp only [sortedMembers, depthOfMembers]
    omega

end

end Value

end Json

namespace Fixtures

open Json

variable {members : List (String × Value)} {fixtures : Fixtures}

end Fixtures

end Routespec
