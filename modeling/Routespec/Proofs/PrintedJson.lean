import Routespec.Json.Reader
import Routespec.Proofs.PrintedTokens

/-!
# Printed values read back

The text of a value consists of the tokens of that value, whatever it is and however deep. A value
that is not nested too deeply is read back from its text, with the members of every object in their
order. Fractions may be read as other numbers; a value without them is read back as it was.
-/

namespace Routespec

namespace Json

namespace Value

mutual

/-- How many arrays and objects are inside one another. -/
def depth : Value → Nat
  | .array items => depthOfItems items + 1
  | .object members => depthOfMembers members + 1
  | .null | .bool _ | .number _ | .string _ | .malformed => 0

def depthOfItems : List Value → Nat
  | [] => 0
  | v :: rest => max v.depth (depthOfItems rest)

def depthOfMembers : List (String × Value) → Nat
  | [] => 0
  | m :: rest => max m.2.depth (depthOfMembers rest)

end

mutual

/-- Everything in a value stands for a value, and all its numbers are whole. -/
def isPlain : Value → Bool
  | .malformed => false
  | .number n => n.isWhole
  | .array items => arePlain items
  | .object members => havePlain members
  | .null | .bool _ | .string _ => true

def arePlain : List Value → Bool
  | [] => true
  | v :: rest => v.isPlain && arePlain rest

def havePlain : List (String × Value) → Bool
  | [] => true
  | m :: rest => m.2.isPlain && havePlain rest

end

theorem arePlain_map {α : Type} {encode : α → Value} (h : ∀ x, (encode x).isPlain = true)
    (xs : List α) : arePlain (xs.map encode) = true := by
  induction xs with
  | nil => rfl
  | cons x rest ih => rw [List.map_cons, arePlain, h, ih, Bool.and_self]

theorem havePlain_append (members more : List (String × Value)) :
    havePlain (members ++ more) = (havePlain members && havePlain more) := by
  induction members with
  | nil => rfl
  | cons m rest ih => rw [List.cons_append, havePlain, havePlain, ih, Bool.and_assoc]

mutual

theorem isWellFormed_of_isPlain (v : Value) (h : v.isPlain = true) : v.isWellFormed = true := by
  cases v with
  | null | bool | number | string => rfl
  | array items => exact areWellFormed_of_arePlain items h
  | object members => exact haveWellFormed_of_havePlain members h
  | malformed => cases h

theorem areWellFormed_of_arePlain (items : List Value) (h : arePlain items = true) :
    areWellFormed items = true := by
  cases items with
  | nil => rfl
  | cons v rest =>
    rw [arePlain, Bool.and_eq_true] at h
    rw [areWellFormed, isWellFormed_of_isPlain v h.1, areWellFormed_of_arePlain rest h.2]
    rfl

theorem haveWellFormed_of_havePlain (members : List (String × Value))
    (h : havePlain members = true) : haveWellFormed members = true := by
  cases members with
  | nil => rfl
  | cons m rest =>
    rw [havePlain, Bool.and_eq_true] at h
    rw [haveWellFormed, isWellFormed_of_isPlain m.2 h.1, haveWellFormed_of_havePlain rest h.2]
    rfl

end

mutual

/-- What a value is read as from its text. What stands for no value is written as null. -/
def asRead : Value → Value
  | .null | .malformed => .null
  | .bool b => .bool b
  | .number n => (n.asRead.map .number).getD .malformed
  | .string s => .string s
  | .array items => .array (itemsAsRead items)
  | .object members => .object (membersAsRead members)

def itemsAsRead : List Value → List Value
  | [] => []
  | v :: rest => v.asRead :: itemsAsRead rest

def membersAsRead : List (String × Value) → List (String × Value)
  | [] => []
  | m :: rest => (m.1, m.2.asRead) :: membersAsRead rest

end

mutual

theorem asRead_of_isPlain (v : Value) (h : v.isPlain = true) : v.asRead = v := by
  cases v with
  | null | bool | string => rfl
  | number n =>
    have hn : n.asRead = some n := Json.asRead_of_isWhole h
    rw [asRead, hn]
    rfl
  | array items => exact congrArg _ (itemsAsRead_of_arePlain items h)
  | object members => exact congrArg _ (membersAsRead_of_havePlain members h)
  | malformed => cases h

theorem itemsAsRead_of_arePlain (items : List Value) (h : arePlain items = true) :
    itemsAsRead items = items := by
  cases items with
  | nil => rfl
  | cons v rest =>
    rw [arePlain, Bool.and_eq_true] at h
    rw [itemsAsRead, asRead_of_isPlain v h.1, itemsAsRead_of_arePlain rest h.2]

theorem membersAsRead_of_havePlain (members : List (String × Value))
    (h : havePlain members = true) : membersAsRead members = members := by
  cases members with
  | nil => rfl
  | cons m rest =>
    rw [havePlain, Bool.and_eq_true] at h
    rw [membersAsRead, asRead_of_isPlain m.2 h.1, membersAsRead_of_havePlain rest h.2]

end

mutual

/-- The tokens of a value. -/
def tokens : Value → List Token
  | .null | .malformed => [.null]
  | .bool b => [.bool b]
  | .number n => [.number n.asRead]
  | .string s => [.string (some s.toList)]
  | .array items => .openArray :: [Token.comma].intercalate (itemTokens items) ++ [.closeArray]
  | .object members =>
    .openObject :: [Token.comma].intercalate (memberTokens members) ++ [.closeObject]

def itemTokens : List Value → List (List Token)
  | [] => []
  | v :: rest => tokens v :: itemTokens rest

def memberTokens : List (String × Value) → List (List Token)
  | [] => []
  | m :: rest => (.string (some m.1.toList) :: .colon :: tokens m.2) :: memberTokens rest

end

mutual

/-- A value is written as its tokens. -/
theorem spells_text (layout : Layout) (v : Value) : Spells Stops (v.text layout) v.tokens := by
  cases v with
  | null | malformed => exact spells_null.weaken
  | bool b =>
    cases b with
    | true => exact spells_true.weaken
    | false => exact spells_false.weaken
  | number n => exact spells_number n
  | string s => exact (spells_quote s).weaken
  | array items =>
    exact (spells_enclose layout (spells_mark (by decide) fun _ => rfl)
      (spells_mark (by decide) fun _ => rfl) (by decide)
      (spells_itemTexts layout.inner items)).weaken
  | object members =>
    exact (spells_enclose layout (spells_mark (by decide) fun _ => rfl)
      (spells_mark (by decide) fun _ => rfl) (by decide)
      (spells_memberTexts layout.inner members)).weaken

theorem spells_itemTexts (layout : Layout) (items : List Value) :
    List.Forall₂ (Spells Stops) (itemTexts layout items) (itemTokens items) := by
  cases items with
  | nil => exact .nil
  | cons v rest => exact .cons (spells_text layout v) (spells_itemTexts layout rest)

theorem spells_memberTexts (layout : Layout) (members : List (String × Value)) :
    List.Forall₂ (Spells Stops) (memberTexts layout members) (memberTokens members) := by
  cases members with
  | nil => exact .nil
  | cons m rest =>
    refine .cons ?_ (spells_memberTexts layout rest)
    exact ((spells_quote m.1).append (spells_colon layout) fun _ _ => trivial).append
      (spells_text layout m.2) fun _ _ => trivial

end

/-- The text of a value consists of its tokens. -/
theorem tokens_pretty (v : Value) : Json.tokens v.pretty.toList = some v.tokens := by
  have hspells := spells_text (.block 0) v
  have hstops : Stops ['\n'] := stops_cons (by decide) []
  have hlength := hspells.length_le
  obtain ⟨steps, hsteps⟩ : ∃ steps,
      (v.text (.block 0) ++ ['\n']).length + 1 = v.tokens.length + (steps + 1) :=
    ⟨(v.text (.block 0)).length + 1 - v.tokens.length, by
      simp only [List.length_append, List.length_singleton]
      omega⟩
  rw [pretty, String.toList_ofList, Json.tokens, hsteps, hspells.scan _ _ hstops]
  simp [tokensWithin, isSpace]

end Value

variable {stack : List Frame} {tokens tokens' : List Token} {v : Value}

/-- Handing over an array or object that is not too deep. -/
theorem close_of_lt (h : stack.length < maxDepth) (v : Value) :
    close v stack = deliver v stack := by
  rw [close, if_pos h]

theorem objectOf_written (members : List (String × Value)) :
    objectOf (members.map fun m => (some m.1.toList, m.2)).reverse = .object members := by
  have hnames : (members.map fun m => (some m.1.toList, m.2)).mapM
      (fun (key, v) => key.map fun k => (String.ofList k, v)) = some members := by
    induction members with
    | nil => rfl
    | cons m rest ih => simp [List.mapM_cons, ih]
  rw [objectOf, List.reverse_reverse, hnames]

/-- Tokens lead the reader from one state to another. -/
def Reads (s : State) (tokens : List Token) (s' : State) : Prop :=
  tokens.foldlM State.step s = some s'

theorem Reads.append {s s₁ s₂ : State} (h : Reads s tokens s₁) (h' : Reads s₁ tokens' s₂) :
    Reads s (tokens ++ tokens') s₂ := by
  rw [Reads, List.foldlM_append, h]
  exact h'

theorem Reads.cons {s s₁ s₂ : State} {token : Token} (h : s.step token = some s₁)
    (h' : Reads s₁ tokens s₂) : Reads s (token :: tokens) s₂ := by
  rw [Reads, List.foldlM_cons, h]
  exact h'

theorem Reads.single {s s' : State} {token : Token} (h : s.step token = some s') :
    Reads s [token] s' := .cons h rfl

/-- The tokens of a value hand over what it is read as. -/
def Delivered (v : Value) : Prop :=
  ∀ stack mayClose, stack.length + v.depth ≤ maxDepth →
    Reads (.value stack mayClose) v.tokens (deliver v.asRead stack)

/-- The first of some items in an array that is not too deep. -/
theorem reads_item {v : Value} {items done : List Value} {mayClose : Bool} (h : Delivered v)
    (hdepth : stack.length + Value.depthOfItems (v :: items) < maxDepth) :
    Reads (.value (.array done :: stack) mayClose) v.tokens
      (.item (v.asRead :: done) stack) := by
  refine h _ _ ?_
  simp only [Value.depthOfItems] at hdepth
  simp only [List.length_cons]
  omega

/-- The items of an array, up to its end. -/
theorem reads_items {v : Value} {items done : List Value} {mayClose : Bool}
    (h : ∀ w ∈ v :: items, Delivered w)
    (hdepth : stack.length + Value.depthOfItems (v :: items) < maxDepth) :
    Reads (.value (.array done :: stack) mayClose)
      ([Token.comma].intercalate (Value.itemTokens (v :: items)) ++ [.closeArray])
      (deliver (.array (done.reverse ++ Value.itemsAsRead (v :: items))) stack) := by
  induction items generalizing v done mayClose with
  | nil =>
    have hv : Reads (.value (.array done :: stack) mayClose) v.tokens
        (.item (v.asRead :: done) stack) := reads_item (h v List.mem_cons_self) hdepth
    have hclose : (State.item (v.asRead :: done) stack).step .closeArray =
        some (deliver (.array (done.reverse ++ [v.asRead])) stack) := by
      rw [State.step, close_of_lt (by omega), List.reverse_cons]
    simp only [Value.itemTokens, Value.itemsAsRead, List.intercalate_singleton]
    exact hv.append (.single hclose)
  | cons w items ih =>
    have hv : Reads (.value (.array done :: stack) mayClose) v.tokens
        (.item (v.asRead :: done) stack) := reads_item (h v List.mem_cons_self) hdepth
    have hnext : Reads (.value (.array (v.asRead :: done) :: stack) false)
        ([Token.comma].intercalate (Value.itemTokens (w :: items)) ++ [.closeArray])
        (deliver (.array ((v.asRead :: done).reverse ++ Value.itemsAsRead (w :: items))) stack) :=
      ih (fun x hx => h x (List.mem_cons_of_mem _ hx)) (by
        simp only [Value.depthOfItems] at hdepth ⊢
        omega)
    rw [List.reverse_cons, List.append_assoc, List.singleton_append] at hnext
    rw [Value.itemTokens, Value.itemTokens, List.intercalate_cons_cons, List.append_assoc,
      List.append_assoc]
    exact hv.append (.cons rfl hnext)

/-- The first of some members in an object that is not too deep. -/
theorem reads_member {m : String × Value} {members : List (String × Value)} {done : Members}
    {mayClose : Bool} (h : Delivered m.2)
    (hdepth : stack.length + Value.depthOfMembers (m :: members) < maxDepth) :
    Reads (.name done stack mayClose) (.string (some m.1.toList) :: .colon :: m.2.tokens)
      (.member ((some m.1.toList, m.2.asRead) :: done) stack) := by
  refine .cons rfl (.cons rfl (h _ _ ?_))
  simp only [Value.depthOfMembers] at hdepth
  simp only [List.length_cons]
  omega

/-- The members of an object, up to its end. -/
theorem reads_members {m : String × Value} {members : List (String × Value)} {done : Members}
    {mayClose : Bool} (h : ∀ x ∈ m :: members, Delivered x.2)
    (hdepth : stack.length + Value.depthOfMembers (m :: members) < maxDepth) :
    Reads (.name done stack mayClose)
      ([Token.comma].intercalate (Value.memberTokens (m :: members)) ++ [.closeObject])
      (deliver (objectOf (((Value.membersAsRead (m :: members)).map fun m =>
        (some m.1.toList, m.2)).reverse ++ done)) stack) := by
  induction members generalizing m done mayClose with
  | nil =>
    have hm : Reads (.name done stack mayClose)
        (.string (some m.1.toList) :: .colon :: m.2.tokens) (.member _ stack) :=
      reads_member (h m List.mem_cons_self) hdepth
    have hclose : (State.member ((some m.1.toList, m.2.asRead) :: done) stack).step .closeObject =
        some (deliver (objectOf ((some m.1.toList, m.2.asRead) :: done)) stack) := by
      rw [State.step, close_of_lt (by omega)]
    simp only [Value.memberTokens, List.intercalate_singleton]
    exact hm.append (.single hclose)
  | cons m' members ih =>
    have hm : Reads (.name done stack mayClose)
        (.string (some m.1.toList) :: .colon :: m.2.tokens) (.member _ stack) :=
      reads_member (h m List.mem_cons_self) hdepth
    have hnext : Reads (.name ((some m.1.toList, m.2.asRead) :: done) stack false)
        ([Token.comma].intercalate (Value.memberTokens (m' :: members)) ++ [.closeObject]) _ :=
      ih (fun x hx => h x (List.mem_cons_of_mem _ hx)) (by
        simp only [Value.depthOfMembers] at hdepth ⊢
        omega)
    rw [Value.memberTokens, Value.memberTokens, List.intercalate_cons_cons, List.append_assoc,
      List.append_assoc, Value.membersAsRead, List.map_cons, List.reverse_cons, List.append_assoc]
    exact hm.append (.cons rfl hnext)

mutual

theorem delivered (v : Value) : Delivered v := by
  -- what is inside an array or object is read on a stack that is higher by one
  intro stack mayClose hdepth
  cases v with
  | null | bool | number | malformed => exact .single rfl
  | string s =>
    have hscalar : (State.value stack mayClose).step (.string (some s.toList)) =
        some (deliver (.string s) stack) := by
      simp [State.step, Token.scalar?]
    exact .single hscalar
  | array items =>
    have hitems := delivered_items items
    rw [Value.depth] at hdepth
    cases items with
    | nil =>
      have hclose : (State.value (.array [] :: stack) true).step .closeArray =
          some (deliver (.array []) stack) := by
        rw [State.step, close_of_lt (by omega)]
      exact .cons rfl (.single hclose)
    | cons v items => exact .cons rfl (reads_items hitems (by omega))
  | object members =>
    have hmembers := delivered_members members
    rw [Value.depth] at hdepth
    cases members with
    | nil =>
      have hclose : (State.name [] stack true).step .closeObject =
          some (deliver (.object []) stack) := by
        rw [State.step, if_pos rfl, close_of_lt (by omega)]
        rfl
      exact .cons rfl (.single hclose)
    | cons m members =>
      have hread : Reads (.name [] stack true) _ (deliver (objectOf _) stack) :=
        reads_members hmembers (by omega)
      rw [List.append_nil, objectOf_written] at hread
      exact .cons rfl hread

theorem delivered_items (items : List Value) : ∀ v ∈ items, Delivered v := by
  cases items with
  | nil => nofun
  | cons v rest => exact List.forall_mem_cons.mpr ⟨delivered v, delivered_items rest⟩

theorem delivered_members (members : List (String × Value)) : ∀ m ∈ members, Delivered m.2 := by
  cases members with
  | nil => nofun
  | cons m rest => exact List.forall_mem_cons.mpr ⟨delivered m.2, delivered_members rest⟩

end

/-- A value that is not nested too deeply is read back from its text. -/
theorem read?_pretty_asRead {v : Value} (hdepth : v.depth ≤ maxDepth) :
    read? v.pretty = some v.asRead := by
  have hread : Reads (.value [] false) v.tokens (.done v.asRead) :=
    delivered v [] false (by simpa using hdepth)
  rw [Reads] at hread
  simp only [read?, v.tokens_pretty, hread, Option.bind_eq_bind, Option.bind_some]

/-- A plain value that is not nested too deeply is read back as it was. -/
theorem read?_pretty {v : Value} (hplain : v.isPlain = true) (hdepth : v.depth ≤ maxDepth) :
    read? v.pretty = some v := by
  rw [read?_pretty_asRead hdepth, v.asRead_of_isPlain hplain]

end Json

end Routespec
