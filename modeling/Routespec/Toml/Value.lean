import Routespec.KeyedList

/-!
# TOML values and tables

A table may be written in several places: under its header, by dotted names, as the parent of
another table. Which of them may add to it depends on how it was begun, so a table carries that
along.
-/

namespace Routespec

namespace Toml

/-- How a table was begun. -/
inductive Origin
  /-- Between braces; nothing may be added. -/
  | braces
  /-- By its header; only headers of tables inside it may add to it. -/
  | header
  /-- By the header of a table inside it; its own header may still come. -/
  | parent
  /-- By a dotted name; other dotted names may add to it. -/
  | dotted
  deriving DecidableEq, Repr, Inhabited

/-- A value. -/
inductive Value
  | string (s : String)
  /-- A number or truth value. -/
  | scalar
  /-- A date, a time of day, or both. -/
  | moment
  | array (items : List Value)
  | table (origin : Origin) (members : List (String × Value))
  /-- Tables under one repeated header, each with its members: the last one and those before it,
  later ones first. -/
  | tables (last : List (String × Value)) (before : List (List (String × Value)))
  deriving Inhabited

/-- The members of a table, in the order in which they were begun. -/
abbrev Members := List (String × Value)

namespace Members

/-- The members with a new one. -/
def add? (name : String) (v : Value) (members : Members) : Option Members :=
  if (members.lookup name).isSome then none else some (KeyedList.put name v members)

/-- The members with a value under a dotted name, whose parts before the last are `path`. On its
way it passes tables begun by dotted names and, except as the last one, tables begun as parents
or under repeated headers. -/
def assign? (name : String) (v : Value) : (path : List String) → Members → Option Members
  | [], members => members.add? name v
  | key :: path, members =>
    match members.lookup key with
    | none => do
      let inner ← assign? name v path []
      return KeyedList.put key (.table .dotted inner) members
    | some (.table .dotted inner) => do
      let inner ← assign? name v path inner
      return KeyedList.put key (.table .dotted inner) members
    | some (.table .parent inner) =>
      if path = [] then none
      else do
        let inner ← assign? name v path inner
        return KeyedList.put key (.table .parent inner) members
    | some (.tables last before) =>
      if path = [] then none
      else do
        let last ← assign? name v path last
        return KeyedList.put key (.tables last before) members
    | some _ => none

/-- The members after `change` has been made to those of the table at `path`. Tables on the way
that are not there are begun as parents; of tables under a repeated header the last one is
meant. -/
def changeAt? (change : Members → Option Members) : (path : List String) → Members → Option Members
  | [], members => change members
  | key :: path, members =>
    match members.lookup key with
    | none => do
      let inner ← changeAt? change path []
      return KeyedList.put key (.table .parent inner) members
    | some (.table .braces _) => none
    | some (.table origin inner) => do
      let inner ← changeAt? change path inner
      return KeyedList.put key (.table origin inner) members
    | some (.tables last before) => do
      let last ← changeAt? change path last
      return KeyedList.put key (.tables last before) members
    | some _ => none

/-- The members with a table begun by its header. -/
def openTable? (name : String) (members : Members) : Option Members :=
  match members.lookup name with
  | none => some (KeyedList.put name (.table .header []) members)
  | some (.table .parent inner) => some (KeyedList.put name (.table .header inner) members)
  | some _ => none

/-- The members with one more table under a repeated header. -/
def openItem? (name : String) (members : Members) : Option Members :=
  match members.lookup name with
  | none => some (KeyedList.put name (.tables [] []) members)
  | some (.tables last before) => some (KeyedList.put name (.tables [] (last :: before)) members)
  | some _ => none

end Members

end Toml

end Routespec
