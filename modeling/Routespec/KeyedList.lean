/-!
# Keyed lists

A list of keys with values holds for each key the value of its first pair, which is what
`List.lookup` finds. Giving a key a value keeps the order of the keys.
-/

namespace Routespec

namespace KeyedList

variable {α β : Type} [BEq α]

/-- The list with a value for a key, in the place of the one it had or else at the end. -/
def put (key : α) (value : β) : List (α × β) → List (α × β)
  | [] => [(key, value)]
  | pair :: rest => if key == pair.1 then (key, value) :: rest else pair :: put key value rest

/-- The key has its new value, and the others have theirs. -/
theorem lookup_put [LawfulBEq α] [DecidableEq α] (key : α) (value : β) (list : List (α × β))
    (other : α) :
    (put key value list).lookup other = if other = key then some value else list.lookup other := by
  induction list with
  | nil =>
    rw [put, List.lookup_cons]
    by_cases h : other = key
    · rw [if_pos h, h, beq_self_eq_true]
    · rw [if_neg h, beq_false_of_ne h]
  | cons pair rest ih =>
    obtain ⟨first, v⟩ := pair
    rw [put]
    by_cases hkey : key = first
    · subst hkey
      rw [beq_self_eq_true, if_pos rfl, List.lookup_cons, List.lookup_cons]
      by_cases h : other = key
      · rw [if_pos h, h, beq_self_eq_true]
      · rw [if_neg h, beq_false_of_ne h]
    · rw [beq_false_of_ne hkey, if_neg Bool.false_ne_true, List.lookup_cons, List.lookup_cons, ih]
      by_cases h : other = first
      · subst h
        rw [beq_self_eq_true, if_neg (Ne.symm hkey), if_neg (Ne.symm hkey)]
      · rw [beq_false_of_ne h]

/-- The keys stay in order, a new one behind the others. -/
theorem map_fst_put [LawfulBEq α] [DecidableEq α] (key : α) (value : β) (list : List (α × β)) :
    (put key value list).map Prod.fst =
      if key ∈ list.map Prod.fst then list.map Prod.fst else list.map Prod.fst ++ [key] := by
  induction list with
  | nil => rfl
  | cons pair rest ih =>
    rw [put]
    by_cases hkey : key = pair.1
    · rw [hkey, beq_self_eq_true, if_pos rfl, List.map_cons, List.map_cons,
        if_pos List.mem_cons_self]
    · rw [beq_false_of_ne hkey, if_neg Bool.false_ne_true, List.map_cons, List.map_cons, ih]
      by_cases hrest : key ∈ rest.map Prod.fst
      · rw [if_pos hrest, if_pos (List.mem_cons_of_mem _ hrest)]
      · rw [if_neg hrest, if_neg fun h => (List.mem_cons.mp h).elim hkey hrest, List.cons_append]

end KeyedList

end Routespec
