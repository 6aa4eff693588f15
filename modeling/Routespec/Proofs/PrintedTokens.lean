import Mathlib.Data.List.Forall2
import Routespec.Proofs.PrintedNumbers

/-!
# Printed tokens

What the printer writes is read as the tokens it is meant as. A numeral has to be followed by
something that does not go on with it; every other token ends by itself.
-/

namespace Routespec

namespace Json

section Strings

/-- The number that four hexadecimal digits of a control character give. -/
theorem value?_control : ∀ n < 0x20,
    Hexadecimal.value? ['0', '0', hexChar (n / 16), hexChar (n % 16)] = some n := by
  decide

/-- A character is written behind a backslash, by its number or as it is. -/
theorem escape_cases (c : Char) :
    (∃ letter, letter ≠ 'u' ∧ shortEscape? letter = some c ∧ escape c = ['\\', letter]) ∨
    (c.toNat < 0x20 ∧ escape c =
      ['\\', 'u', '0', '0', hexChar (c.toNat / 16), hexChar (c.toNat % 16)]) ∨
    (c ≠ '"' ∧ c ≠ '\\' ∧ ¬ c.toNat < 0x20 ∧ escape c = [c]) := by
  unfold escape
  split
  · exact .inl ⟨'"', by decide, rfl, rfl⟩
  · exact .inl ⟨'\\', by decide, rfl, rfl⟩
  · exact .inl ⟨'b', by decide, rfl, rfl⟩
  · exact .inl ⟨'f', by decide, rfl, rfl⟩
  · exact .inl ⟨'n', by decide, rfl, rfl⟩
  · exact .inl ⟨'r', by decide, rfl, rfl⟩
  · exact .inl ⟨'t', by decide, rfl, rfl⟩
  · rename_i hquote hslash _ _ _ _ _
    split
    · exact .inr (.inl ⟨‹_›, rfl⟩)
    · exact .inr (.inr ⟨hquote, hslash, ‹_›, rfl⟩)

theorem assemble?_unit {n : Nat} (h : n < 0xD800) (pieces : List StringPiece) :
    assemble? (.unit n :: pieces) = (assemble? pieces).map (Char.ofNat n :: ·) := by
  have hlow : ¬ (0xDC00 ≤ n ∧ n < 0xE000) := by omega
  have hhigh : ¬ (0xD800 ≤ n ∧ n < 0xDC00) := by omega
  rcases pieces with _ | ⟨_ | low, rest⟩
  · simp [assemble?, hlow, hhigh]
  · simp [assemble?, hlow, hhigh]
  · rw [assemble?, if_neg hlow, if_neg hhigh]

/-- A character as it stands in a string is read as one piece, which stands for it. -/
theorem scanString_escape (c : Char) (rest : Text) :
    ∃ piece, scanString (escape c ++ rest) =
        (scanString rest).map (fun (pieces, rest) => (piece :: pieces, rest)) ∧
      ∀ pieces, assemble? (piece :: pieces) = (assemble? pieces).map (c :: ·) := by
  rcases escape_cases c with
    ⟨letter, hu, hletter, hc⟩ | ⟨hcontrol, hc⟩ | ⟨hquote, hslash, hplain, hc⟩
  · refine ⟨.plain c, ?_, fun pieces => rfl⟩
    rw [hc, List.cons_append, List.singleton_append, scanString, hletter]
    · cases scanString rest <;> rfl
    · exact fun _ _ _ _ _ h => absurd h hu
  · refine ⟨.unit c.toNat, ?_, fun pieces => ?_⟩
    · simp only [hc, List.cons_append, List.nil_append]
      rw [scanString, value?_control _ hcontrol]
      cases scanString rest <;> rfl
    · rw [assemble?_unit (by omega), Char.ofNat_toNat]
  · refine ⟨.plain c, ?_, fun pieces => rfl⟩
    rw [hc, List.singleton_append, scanString, if_neg (by simp [hslash, hplain])]
    · exact hquote
    · exact fun _ _ _ _ _ h => absurd h hslash
    · exact fun _ _ h => absurd h hslash

theorem scanString_quoted (s rest : Text) :
    ∃ pieces, scanString (s.flatMap escape ++ '"' :: rest) = some (pieces, rest) ∧
      assemble? pieces = some s := by
  induction s with
  | nil => exact ⟨[], by rw [List.flatMap_nil, List.nil_append, scanString], rfl⟩
  | cons c s ih =>
    obtain ⟨pieces, hscan, hpieces⟩ := ih
    obtain ⟨piece, hpiece, hassemble⟩ := scanString_escape c (s.flatMap escape ++ '"' :: rest)
    refine ⟨piece :: pieces, ?_, by rw [hassemble, hpieces, Option.map_some]⟩
    rw [List.flatMap_cons, List.append_assoc, hpiece, hscan, Option.map_some]

end Strings

section Tokens

/-- Before what `follow` accepts, a text is read as the given tokens. -/
structure Spells (follow : Text → Prop) (t : Text) (tokens : List Token) : Prop where
  length_le : tokens.length ≤ t.length
  scan : ∀ rest steps, follow rest →
    tokensWithin (tokens.length + steps) (t ++ rest) =
      (tokensWithin steps rest).map (tokens ++ ·)

/-- Whatever follows. -/
def anything (_ : Text) : Prop := True

variable {follow follow' : Text → Prop} {t t' : Text} {ts ts' : List Token}

theorem Spells.append (h : Spells follow t ts) (h' : Spells follow' t' ts')
    (hfollow : ∀ rest, follow' rest → follow (t' ++ rest)) :
    Spells follow' (t ++ t') (ts ++ ts') where
  length_le := by
    have := h.length_le
    have := h'.length_le
    simp only [List.length_append]
    omega
  scan rest steps hrest := by
    rw [List.append_assoc, List.length_append, Nat.add_assoc, h.scan _ _ (hfollow rest hrest),
      h'.scan rest steps hrest, Option.map_map]
    congr 1
    funext tokens
    exact (List.append_assoc ts ts' tokens).symm

theorem Spells.weaken (h : Spells anything t ts) : Spells follow t ts :=
  ⟨h.length_le, fun rest steps _ => h.scan rest steps trivial⟩

/-- White space is no token. -/
theorem spells_spaces (h : ∀ c ∈ t, isSpace c = true) : Spells anything t [] where
  length_le := Nat.zero_le _
  scan rest steps _ := by
    rw [List.length_nil, Nat.zero_add]
    cases steps with
    | zero => rfl
    | succ steps =>
      rw [tokensWithin, tokensWithin, List.dropWhile_append_of_pos h]
      simp

theorem spells_token {token : Token} {c : Char} (hc : isSpace c = false)
    (h : ∀ rest, follow rest → scanToken (c :: t ++ rest) = some (token, rest)) :
    Spells follow (c :: t) [token] where
  length_le := by simp
  scan rest steps hrest := by
    rw [List.length_singleton, Nat.add_comm, tokensWithin, List.cons_append,
      List.dropWhile_cons_of_neg (by simp [hc])]
    have hscan := h rest hrest
    rw [List.cons_append] at hscan
    simp only [hscan]
    change ((tokensWithin steps rest).bind fun tokens => some (token :: tokens)) = _
    cases tokensWithin steps rest <;> rfl

theorem spells_quote (s : String) : Spells anything (quote s) [.string (some s.toList)] := by
  refine spells_token (by decide) fun rest _ => ?_
  obtain ⟨pieces, hscan, hpieces⟩ := scanString_quoted s.toList rest
  simp [scanToken, hscan, hpieces]

/-- A character that a numeral may begin with. -/
def startsNumeral (c : Char) : Bool := c.isDigit || c == '-'

theorem exists_text_eq_cons (n : Number) : ∃ c t, n.text = c :: t ∧ startsNumeral c = true := by
  obtain ⟨numeral, hproper, htext⟩ := exists_numeral n
  obtain ⟨d, digits, hd⟩ := List.exists_cons_of_ne_nil hproper.whole_ne_nil
  rw [← htext, Numeral.text, hd]
  cases numeral.isNegative with
  | true => exact ⟨'-', _, rfl, by decide⟩
  | false =>
    refine ⟨d, _, rfl, ?_⟩
    rw [startsNumeral, hproper.whole d (hd ▸ List.mem_cons_self), Bool.true_or]

theorem scanToken_of_startsNumeral {c : Char} (hc : startsNumeral c = true) (t : Text) :
    scanToken (c :: t) = (scanNumeral (c :: t)).map fun (n, rest) => (.number n.number?, rest) := by
  unfold scanToken
  split
  case h_12 => rfl
  case h_1 h => cases h
  all_goals
    rename_i h
    obtain ⟨rfl, -⟩ := List.cons.inj h
    exact absurd hc (by decide)

theorem isSpace_of_startsNumeral {c : Char} (hc : startsNumeral c = true) : isSpace c = false := by
  refine Bool.eq_false_iff.mpr fun hspace => ?_
  simp only [isSpace, Bool.or_eq_true, beq_iff_eq] at hspace
  rcases hspace with ((rfl | rfl) | rfl) | rfl <;> exact absurd hc (by decide)

theorem spells_number (n : Number) : Spells Stops n.text [.number n.asRead] := by
  obtain ⟨c, t, ht, hc⟩ := exists_text_eq_cons n
  rw [ht]
  refine spells_token (isSpace_of_startsNumeral hc) fun rest hrest => ?_
  obtain ⟨numeral, hscan, hnumber⟩ := scanNumeral_number n hrest
  rw [ht, List.cons_append] at hscan
  rw [List.cons_append, scanToken_of_startsNumeral hc, hscan, ← hnumber]
  rfl

/-- A mark is a token by itself, and so is a word. -/
theorem spells_mark {c : Char} {token : Token} (hc : isSpace c = false)
    (h : ∀ rest, scanToken (c :: rest) = some (token, rest)) : Spells anything [c] [token] :=
  spells_token hc fun rest _ => h rest

theorem spells_comma : Spells anything [','] [.comma] := spells_mark (by decide) fun _ => rfl

theorem spells_null : Spells anything ['n', 'u', 'l', 'l'] [.null] :=
  spells_token (by decide) fun _ _ => rfl

theorem spells_true : Spells anything ['t', 'r', 'u', 'e'] [.bool true] :=
  spells_token (by decide) fun _ _ => rfl

theorem spells_false : Spells anything ['f', 'a', 'l', 's', 'e'] [.bool false] :=
  spells_token (by decide) fun _ _ => rfl

end Tokens

section Layouts

variable {parts : List Text} {tokens : List (List Token)}

theorem spells_newline (layout : Layout) : Spells anything layout.newline [] := by
  refine spells_spaces fun c hc => ?_
  cases layout with
  | line => cases hc
  | block depth =>
    rcases List.mem_cons.mp hc with rfl | hc
    · rfl
    · rw [(List.mem_replicate.mp hc).2]
      rfl

theorem stops_cons {c : Char} (hc : isNumeric c = false) (rest : Text) : Stops (c :: rest) := by
  intro d hd
  obtain rfl := Option.some.inj hd
  exact hc

theorem stops_newline (layout : Layout) {c : Char} (hc : isNumeric c = false) (rest : Text) :
    Stops (layout.newline ++ c :: rest) := by
  cases layout with
  | line => exact stops_cons hc rest
  | block depth => exact stops_cons (by decide) _

theorem spells_colon (layout : Layout) : Spells anything layout.colon [.colon] := by
  have hmark : Spells anything [':'] [.colon] := spells_mark (by decide) fun _ => rfl
  cases layout with
  | line => exact hmark
  | block depth =>
    have hspace : Spells anything [' '] [] := spells_spaces fun c hc => by
      obtain rfl := List.mem_singleton.mp hc
      rfl
    exact hmark.append hspace fun _ _ => trivial

/-- Parts with commas between them. -/
theorem spells_separated (h : List.Forall₂ (Spells Stops) parts tokens) (hne : parts ≠ []) :
    Spells Stops ([','].intercalate parts) ([Token.comma].intercalate tokens) := by
  induction h with
  | nil => contradiction
  | @cons part ts parts tokens hpart hrest ih =>
    cases hrest with
    | nil => simpa [List.intercalate_singleton] using hpart
    | cons hpart' hrest' =>
      rw [List.intercalate_cons_cons, List.intercalate_cons_cons, List.append_assoc,
        List.append_assoc]
      refine hpart.append (spells_comma.append (ih (by simp)) fun _ _ => trivial) fun rest _ => ?_
      exact stops_cons (by decide) _

/-- Parts between two brackets, each on a line or all on one. -/
theorem spells_enclose (layout : Layout) {opening closing : Char} {openToken closeToken : Token}
    (hopen : Spells anything [opening] [openToken])
    (hclose : Spells anything [closing] [closeToken]) (hstop : isNumeric closing = false)
    (h : List.Forall₂ (Spells Stops) parts tokens) :
    Spells anything (enclose layout opening closing parts)
      (openToken :: [Token.comma].intercalate tokens ++ [closeToken]) := by
  have hlines : List.Forall₂ (Spells Stops) (parts.map (layout.inner.newline ++ ·)) tokens := by
    rw [List.forall₂_map_left_iff]
    exact h.imp fun part ts hpart => (spells_newline _).append hpart fun _ _ => trivial
  have hlast : Spells anything (layout.newline ++ [closing]) [closeToken] :=
    (spells_newline layout).append hclose fun _ _ => trivial
  cases h with
  | nil => exact hopen.append hclose fun _ _ => trivial
  | cons hpart hrest =>
    have hinner := (spells_separated hlines (by simp)).append hlast fun rest _ => by
      rw [List.append_assoc]
      exact stops_newline layout hstop rest
    have hall := hopen.append hinner fun _ _ => trivial
    simpa [enclose] using hall

end Layouts

end Json

end Routespec
