import Routespec.Json.Value

/-!
# Records in JSON

A record is written as an object, whose unknown members are skipped and whose known members may
not repeat, or as an array of its members in order, from which members may be missing at the end.
-/

namespace Routespec

namespace Json

namespace Value

/-- The slots of a record with the given member names: for each the value that was written. -/
def record? (names : List String) : Value → Option (List (Option Value))
  | .object members =>
    if names.all fun name => members.countP (·.1 = name) ≤ 1 then
      some (names.map (List.lookup · members))
    else none
  | .array items =>
    if items.length ≤ names.length then
      some (items.map some ++ List.replicate (names.length - items.length) none)
    else none
  | _ => none

theorem sizeOf_of_lookup {members : List (String × Value)} {name : String} {v : Value}
    (h : members.lookup name = some v) : sizeOf v < sizeOf members := by
  induction members with
  | nil => simp at h
  | cons m rest ih =>
    obtain ⟨key, w⟩ := m
    rw [List.lookup_cons] at h
    split at h
    · simp only [Option.some.injEq] at h
      subst h
      simp only [List.cons.sizeOf_spec, Prod.mk.sizeOf_spec]
      omega
    · have := ih h
      simp only [List.cons.sizeOf_spec]
      omega

/-- What was written in a slot is smaller than the record. -/
theorem sizeOf_of_record? {names : List String} {v w : Value} {slots : List (Option Value)}
    (h : v.record? names = some slots) (hw : some w ∈ slots) : sizeOf w < sizeOf v := by
  cases v with
  | object members =>
    simp only [record?] at h
    split at h
    · simp only [Option.some.injEq] at h
      subst h
      obtain ⟨name, -, hname⟩ := List.mem_map.mp hw
      have := sizeOf_of_lookup hname
      simp only [Value.object.sizeOf_spec]
      omega
    · simp at h
  | array items =>
    simp only [record?] at h
    split at h
    · simp only [Option.some.injEq] at h
      subst h
      rcases List.mem_append.mp hw with hw | hw
      · obtain ⟨x, hx, hxw⟩ := List.mem_map.mp hw
        simp only [Option.some.injEq] at hxw
        subst hxw
        have := List.sizeOf_lt_of_mem hx
        simp only [Value.array.sizeOf_spec]
        omega
      · have := (List.mem_replicate.mp hw).2
        simp at this
    · simp at h
  | _ => simp [record?] at h

/-- A string. -/
def string? : Value → Option String
  | .string s => some s
  | _ => none

/-- A truth value. -/
def bool? : Value → Option Bool
  | .bool b => some b
  | _ => none

/-- A whole number that 16 bits hold. -/
def uint16? : Value → Option UInt16
  | .number (.natural n) => if n < 65536 then some n.toUInt16 else none
  | _ => none

/-- A list of what `decode` reads. -/
def list? {α : Type} (decode : Value → Option α) : Value → Option (List α)
  | .array items => items.mapM decode
  | _ => none

/-- What `decode` reads, or null. -/
def nullable? {α : Type} (decode : Value → Option α) : Value → Option (Option α)
  | .null => some none
  | v => (decode v).map some

/-- One of some words, written as a string or as an object with that member alone, which is null. -/
def word? {α : Type} (ofWord? : String → Option α) : Value → Option α
  | .string s => ofWord? s
  | .object [(word, .null)] => ofWord? word
  | _ => none

end Value

/-- What `decode` reads from a slot that has to be filled. -/
def filled {α : Type} (decode : Value → Option α) (slot : Option Value) : Option α :=
  slot.bind decode

/-- What `decode` reads from a slot that may be left out. -/
def filledOr {α : Type} (default : α) (decode : Value → Option α) : Option Value → Option α
  | none => some default
  | some v => decode v

/-- A member that is left out when it holds nothing. -/
def unlessEmpty (name : String) (v : Value) (empty : Bool) : List (String × Value) :=
  if empty then [] else [(name, v)]

/-- A list of strings. -/
def strings (xs : List String) : Value := .array (xs.map .string)

end Json

end Routespec
