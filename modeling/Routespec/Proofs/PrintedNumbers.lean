import Mathlib.Data.List.Basic
import Routespec.Json.Printer
import Routespec.Json.Token
import Routespec.Text.Runs

/-!
# Printed numbers

Every number is written as a numeral, and scanned as that numeral if nothing behind it goes on with
it. Of a whole number the numeral stands for the number itself.
-/

namespace Routespec

namespace Json

/-- A character that may stand in a numeral behind its first digit. -/
def isNumeric (c : Char) : Bool := c.isDigit || c == '.' || c == 'e' || c == 'E'

/-- A text that does not go on with a numeral. -/
def Stops (rest : Text) : Prop := ∀ c ∈ rest.head?, isNumeric c = false

/-- A text that does not go on with digits. -/
def EndsDigits (rest : Text) : Prop := ∀ c ∈ rest.head?, c.isDigit = false

/-- The text of an exponent, which always has a sign. -/
def exponentText (e : Int) : Text :=
  'e' :: (if e < 0 then '-' else '+') :: Nat.toDigits 10 e.natAbs

namespace Numeral

/-- The text of a numeral behind its sign and the digits before the point. -/
def tail (n : Numeral) : Text :=
  n.fraction.elim [] ('.' :: ·) ++ n.exponent.elim [] exponentText

/-- The text of a numeral. -/
def text (n : Numeral) : Text := (if n.isNegative then ['-'] else []) ++ (n.whole ++ n.tail)

/-- There are digits before the point, without leading zeros, and after it if there is one. -/
structure IsProper (n : Numeral) : Prop where
  whole : ∀ c ∈ n.whole, c.isDigit = true
  whole_ne_nil : n.whole ≠ []
  length_whole : n.whole.head? = some '0' → n.whole.length = 1
  fraction : ∀ f ∈ n.fraction, f ≠ [] ∧ ∀ c ∈ f, c.isDigit = true

/-- The digits of a whole number, behind a minus sign or not. -/
def ofNat (isNegative : Bool) (n : Nat) : Numeral :=
  ⟨isNegative, Nat.toDigits 10 n, none, none⟩

theorem text_ofNat (isNegative : Bool) (n : Nat) :
    (ofNat isNegative n).text = (if isNegative then ['-'] else []) ++ Nat.toDigits 10 n :=
  congrArg (_ ++ ·) (List.append_nil _)

end Numeral

section Digits

variable {digits : Text}

theorem le_valueFrom (n : Nat) (digits : Text) : n ≤ Decimal.valueFrom n digits := by
  induction digits generalizing n with
  | nil => exact Nat.le_refl n
  | cons c digits ih =>
    have hstep := ih (10 * n + Decimal.digit c)
    rw [Decimal.valueFrom, List.foldl_cons]
    exact Nat.le_trans (by omega) hstep

/-- Digits of a value below the limit are all absorbed. -/
theorem absorb_eq {limit n : Nat} (h : Decimal.valueFrom n digits < limit) :
    Decimal.absorb limit n digits = (Decimal.valueFrom n digits, []) := by
  induction digits generalizing n with
  | nil => rfl
  | cons c digits ih =>
    rw [Decimal.absorb, if_pos (Nat.lt_of_le_of_lt (le_valueFrom _ digits) h)]
    exact ih h

theorem valueFrom_toDigits (n : Nat) : Decimal.valueFrom 0 (Nat.toDigits 10 n) = n :=
  Nat.ofDigitChars_toDigits (by decide) (by decide)

theorem isDigit_of_mem_toDigits {n : Nat} {c : Char} (h : c ∈ Nat.toDigits 10 n) :
    c.isDigit = true :=
  Nat.isDigit_of_mem_toDigits (by decide) (by decide) h

theorem head?_toDigits_ne_zero {n : Nat} (h : 0 < n) : (Nat.toDigits 10 n).head? ≠ some '0' := by
  induction n using Nat.strongRecOn with
  | ind n ih =>
    rw [Nat.toDigits_eq_if (by decide)]
    split
    · rename_i hsmall
      have hdigits : ∀ n < 10, 0 < n → [Nat.digitChar n].head? ≠ some '0' := by decide
      exact hdigits n hsmall h
    · rw [List.head?_append_of_ne_nil _ Nat.toDigits_ne_nil]
      exact ih (n / 10) (by omega) (by omega)

/-- A numeral has no leading zeros. -/
theorem length_toDigits_of_head? {n : Nat} (h : (Nat.toDigits 10 n).head? = some '0') :
    (Nat.toDigits 10 n).length = 1 := by
  rcases Nat.eq_zero_or_pos n with rfl | hn
  · rfl
  · exact absurd h (head?_toDigits_ne_zero hn)

theorem isProper_ofNat (isNegative : Bool) (n : Nat) : (Numeral.ofNat isNegative n).IsProper where
  whole _ := isDigit_of_mem_toDigits
  whole_ne_nil := Nat.toDigits_ne_nil
  length_whole := length_toDigits_of_head?
  fraction _ := nofun

/-- Digits with a point among them. -/
theorem isProper_cut {k : Nat} (hdigit : ∀ c ∈ digits, c.isDigit = true)
    (hzero : digits.head? = some '0' → digits.length = 1) (hk : 0 < k) (hlt : k < digits.length)
    (exponent : Option Int) :
    Numeral.IsProper ⟨false, digits.take k, some (digits.drop k), exponent⟩ where
  whole c hc := hdigit c (List.mem_of_mem_take hc)
  whole_ne_nil := List.ne_nil_of_length_pos (by
    rw [List.length_take]
    omega)
  length_whole h := by
    rw [List.head?_take, if_neg (Nat.ne_of_gt hk)] at h
    have := hzero h
    omega
  fraction f hf := by
    obtain rfl := Option.some.inj hf
    refine ⟨?_, fun c hc => hdigit c (List.mem_of_mem_drop hc)⟩
    rw [ne_eq, List.drop_eq_nil_iff]
    omega

end Digits

section Numerals

variable {rest : Text}

theorem endsDigits_cons {c : Char} (hc : c.isDigit = false) (t : Text) : EndsDigits (c :: t) := by
  intro d hd
  obtain rfl := Option.some.inj hd
  exact hc

theorem stops_nil : Stops [] := fun _ => nofun

theorem Stops.endsDigits (h : Stops rest) : EndsDigits rest := by
  intro c hc
  have hnumeric := h c hc
  simp only [isNumeric, Bool.or_eq_false_iff] at hnumeric
  exact hnumeric.1.1.1

theorem endsDigits_exponent (e : Option Int) (h : Stops rest) :
    EndsDigits (e.elim [] exponentText ++ rest) := by
  cases e with
  | none => exact h.endsDigits
  | some e => exact endsDigits_cons (by decide) _

theorem head?_exponent_ne_point (e : Option Int) (h : Stops rest) :
    (e.elim [] exponentText ++ rest).head? ≠ some '.' := by
  cases e with
  | none => exact fun hpoint => absurd (h '.' hpoint) (by decide)
  | some e => exact fun hpoint => absurd (Option.some.inj hpoint) (by decide)

/-- An exponent is scanned as it was written, and so is that there is none. -/
theorem scanExponent_written (e : Option Int) (h : Stops rest) :
    scanExponent (e.elim [] exponentText ++ rest) = some (e, rest) := by
  cases e with
  | none =>
    cases rest with
    | nil => rfl
    | cons c rest =>
      have hc := h c rfl
      simp only [isNumeric, Bool.or_eq_false_iff, beq_eq_false_iff_ne] at hc
      simp [scanExponent, hc.1.2, hc.2]
  | some e =>
    have hdigits : ∀ c ∈ Nat.toDigits 10 e.natAbs, c.isDigit = true :=
      fun c => isDigit_of_mem_toDigits
    have htake := Text.takeWhile_exact hdigits h.endsDigits
    have hdrop := Text.dropWhile_exact hdigits h.endsDigits
    have hvalue : Decimal.value (Nat.toDigits 10 e.natAbs) = e.natAbs := valueFrom_toDigits _
    have hne : Nat.toDigits 10 e.natAbs ≠ [] := Nat.toDigits_ne_nil
    rw [Option.elim_some, exponentText, List.cons_append, List.cons_append]
    by_cases he : e < 0
    · have hsign : -(e.natAbs : Int) = e := by omega
      simp only [if_pos he, scanExponent, true_or, if_true, htake, hdrop, hvalue, hne, if_false,
        hsign]
    · have hsign : (e.natAbs : Int) = e := by omega
      simp only [if_neg he, scanExponent, true_or, if_true, htake, hdrop, hvalue, hne,
        Bool.false_eq_true, if_false, hsign]

/-- A text is taken apart into its sign and the rest. -/
theorem takeSign_written (isNegative : Bool) {t : Text} (ht : ∀ c ∈ t.head?, c.isDigit = true) :
    (match (if isNegative then ['-'] else []) ++ t with
      | '-' :: rest => (true, rest)
      | t => (false, t)) = (isNegative, t) := by
  cases isNegative with
  | true => rfl
  | false =>
    rw [if_neg Bool.false_ne_true, List.nil_append]
    split
    · exact absurd (ht '-' rfl) (by decide)
    · rfl

/-- A numeral is scanned as it was written. -/
theorem Numeral.IsProper.scanNumeral_text {n : Numeral} (h : n.IsProper) (hrest : Stops rest) :
    scanNumeral (n.text ++ rest) = some (n, rest) := by
  have hexponent := scanExponent_written n.exponent hrest
  have hends := endsDigits_exponent n.exponent hrest
  have hpoint := head?_exponent_ne_point n.exponent hrest
  simp only [Numeral.text, Numeral.tail, List.append_assoc]
  generalize n.exponent.elim [] exponentText ++ rest = t at hexponent hends hpoint ⊢
  have htail : EndsDigits (n.fraction.elim [] ('.' :: ·) ++ t) := by
    cases n.fraction with
    | none => exact hends
    | some f => exact endsDigits_cons (by decide) _
  have htake := Text.takeWhile_exact h.whole htail
  have hdrop := Text.dropWhile_exact h.whole htail
  have hsign := takeSign_written n.isNegative
    (t := n.whole ++ (n.fraction.elim [] ('.' :: ·) ++ t)) fun c hc => by
      rw [List.head?_append_of_ne_nil _ h.whole_ne_nil] at hc
      exact h.whole c (List.mem_of_mem_head? hc)
  unfold scanNumeral guard
  split
  rename_i heq
  obtain ⟨hneg, hdigits⟩ := Prod.mk.inj (hsign.symm.trans heq)
  subst hneg hdigits
  simp only [htake, hdrop]
  rw [if_pos ⟨h.whole_ne_nil, h.length_whole⟩]
  cases hfraction : n.fraction with
  | none =>
    rw [Option.elim_none, List.nil_append]
    split
    · exact absurd rfl hpoint
    · simp [hexponent, ← hfraction]
  | some f =>
    obtain ⟨hf, hfdigits⟩ := h.fraction f hfraction
    have htake' := Text.takeWhile_exact hfdigits hends
    have hdrop' := Text.dropWhile_exact hfdigits hends
    rw [Option.elim_some, List.cons_append]
    simp [htake', hdrop', hexponent, hf, ← hfraction]

end Numerals

section Reals

open Binary64

/-- A grid has no hit at zero unless the number is zero. -/
theorem pos_of_onGrid? {x : Binary64} {k : Int} {n : Nat} (hx : x.mantissa ≠ 0)
    (h : x.onGrid? k = some n) : 0 < n := by
  unfold onGrid? at h
  extract_lets m s step unit v low high inside c at h
  have hunit : 0 < unit := Nat.mul_pos (Nat.pow_pos (by decide)) (Nat.pow_pos (by decide))
  have hv : 4 * unit ≤ v := Nat.mul_le_mul_right unit (show 4 ≤ 4 * m by omega)
  have hlow : 0 < low := by
    simp only [low]
    split <;> omega
  have hzero : inside 0 = false := by
    simp [inside, Nat.not_le.mpr hlow]
  have hpos (hc : inside c = true) : 0 < c :=
    Nat.pos_of_ne_zero fun h => Bool.false_ne_true (hzero.symm.trans (h ▸ hc))
  clear_value c
  split at h
  · rename_i hc _
    have hc := hpos hc
    split at h
    · exact Option.some.inj h ▸ hc
    · split at h
      · exact Option.some.inj h ▸ Nat.succ_pos c
      · exact Option.some.inj h ▸ Nat.add_pos_left hc _
  · rename_i hc _
    exact Option.some.inj h ▸ hpos hc
  · exact Option.some.inj h ▸ Nat.succ_pos c
  · contradiction

/-- Zero is written as itself. -/
theorem exponent_shortest {x : Binary64} (h : x.shortest.digits = 0) : x.shortest.exponent = 0 := by
  have hfrom (hx : x.mantissa ≠ 0) (steps : Nat) (k : Int)
      (h : (shortestFrom x steps k).digits = 0) : (shortestFrom x steps k).exponent = 0 := by
    induction steps generalizing k with
    | zero => rfl
    | succ steps ih =>
      rw [shortestFrom] at h ⊢
      split at h
      · rename_i hgrid
        exact absurd h (Nat.ne_of_gt (pos_of_onGrid? hx hgrid))
      · exact ih _ h
  unfold shortest at h ⊢
  split
  · rfl
  · rename_i hx
    rw [if_neg hx] at h
    exact hfrom hx _ _ h

/-- The text of a decimal is that of a numeral without a sign. -/
theorem exists_numeral_decimal {d : DecimalForm} (hd : d.digits = 0 → d.exponent = 0) :
    ∃ n : Numeral, n.IsProper ∧ n.whole ++ n.tail = d.text := by
  unfold DecimalForm.text
  extract_lets digits point fraction e sign
  have hdigit : ∀ c ∈ digits, c.isDigit = true := fun c => isDigit_of_mem_toDigits
  have hne : digits ≠ [] := Nat.toDigits_ne_nil
  have hone : digits.head? = some '0' → digits.length = 1 := length_toDigits_of_head?
  have hzero (h : digits.head? = some '0') : d.exponent = 0 :=
    hd (Nat.eq_zero_of_not_pos fun hpos => head?_toDigits_ne_zero hpos h)
  have hzeros (n : Nat) : ∀ c ∈ List.replicate n '0', c.isDigit = true := fun c hc =>
    (List.mem_replicate.mp hc).2 ▸ rfl
  have hlength := List.length_pos_iff.mpr hne
  clear_value digits
  split
  · -- zeros stand behind the digits
    refine ⟨⟨false, digits ++ List.replicate d.exponent.toNat '0', some ['0'], none⟩,
      ⟨List.forall_mem_append.mpr ⟨hdigit, hzeros _⟩, by simp [hne], fun h => ?_, by simp⟩,
      by simp [Numeral.tail]⟩
    rw [List.head?_append_of_ne_nil _ hne] at h
    simp [hone h, hzero h]
  split
  · -- the point stands among the digits
    exact ⟨_, isProper_cut hdigit hone (k := point.toNat) (by omega) (by omega) none,
      by simp [Numeral.tail]⟩
  split
  · -- zeros stand before the digits
    refine ⟨⟨false, ['0'], some (List.replicate (-point).toNat '0' ++ digits), none⟩,
      ⟨by simp, by simp, by simp, fun f hf => ?_⟩, by simp [Numeral.tail]⟩
    obtain rfl := Option.some.inj hf
    exact ⟨by simp [hne], List.forall_mem_append.mpr ⟨hzeros _, hdigit⟩⟩
  -- an exponent stands behind the digits
  by_cases hsingle : digits.length = 1
  · refine ⟨⟨false, digits, none, some e⟩, ⟨hdigit, hne, hone, nofun⟩, ?_⟩
    simp [Numeral.tail, exponentText, fraction, sign, hsingle, List.take_of_length_le]
  · refine ⟨_, isProper_cut hdigit hone Nat.one_pos (by omega) (some e), ?_⟩
    simp [Numeral.tail, exponentText, fraction, sign, hsingle]

end Reals

/-- The text of every number is that of a numeral. -/
theorem exists_numeral (n : Number) :
    ∃ numeral : Numeral, numeral.IsProper ∧ numeral.text = n.text := by
  cases n with
  | natural n => exact ⟨_, isProper_ofNat false n, Numeral.text_ofNat false n⟩
  | negative n => exact ⟨_, isProper_ofNat true n, Numeral.text_ofNat true n⟩
  | real isNegative x =>
    have hzero : x.shortest.digits = 0 → x.shortest.exponent = 0 := exponent_shortest
    obtain ⟨numeral, hproper, htext⟩ := exists_numeral_decimal hzero
    refine ⟨{ numeral with isNegative },
      ⟨hproper.whole, hproper.whole_ne_nil, hproper.length_whole, hproper.fraction⟩, ?_⟩
    rw [Number.text, ← htext]
    rfl

/-- What a number is read as: what its text is scanned as, which may be another number or none. -/
def Number.asRead (n : Number) : Option Number :=
  (scanNumeral n.text).bind fun (numeral, _) => numeral.number?

/-- The text of a number is scanned as what the number is read as. -/
theorem scanNumeral_number (n : Number) {rest : Text} (hrest : Stops rest) :
    ∃ numeral, scanNumeral (n.text ++ rest) = some (numeral, rest) ∧
      numeral.number? = n.asRead := by
  obtain ⟨numeral, hproper, htext⟩ := exists_numeral n
  have hscan := hproper.scanNumeral_text stops_nil
  rw [List.append_nil] at hscan
  refine ⟨numeral, htext ▸ hproper.scanNumeral_text hrest, ?_⟩
  rw [Number.asRead, ← htext, hscan, Option.bind_some]

/-- A whole number that is written with its digits only. -/
def Number.isWhole : Number → Bool
  | .natural n => n < Nat.pow 2 64
  | .negative n => 0 < n && n ≤ Nat.pow 2 63
  | .real _ _ => false

/-- A whole number is read as it is. -/
theorem asRead_of_isWhole {n : Number} (h : n.isWhole = true) : n.asRead = some n := by
  have hread (isNegative : Bool) {m : Nat}
      (htext : n.text = (if isNegative then ['-'] else []) ++ Nat.toDigits 10 m) :
      n.asRead = (Numeral.ofNat isNegative m).number? := by
    have hscan := (isProper_ofNat isNegative m).scanNumeral_text stops_nil
    rw [Numeral.text_ofNat, List.append_nil] at hscan
    rw [Number.asRead, htext, hscan, Option.bind_some]
  have habsorb {m : Nat} (hm : m < significandLimit) :
      Decimal.absorb significandLimit 0 (Nat.toDigits 10 m) = (m, []) := by
    rw [absorb_eq, valueFrom_toDigits]
    rwa [valueFrom_toDigits]
  cases n with
  | natural n =>
    have hsmall : n < significandLimit := of_decide_eq_true h
    rw [hread false rfl]
    simp [Numeral.ofNat, Numeral.number?, habsorb hsmall]
  | negative n =>
    simp only [Number.isWhole, Bool.and_eq_true, decide_eq_true_eq] at h
    have hsmall : n < significandLimit := Nat.lt_of_le_of_lt h.2 (by decide)
    rw [hread true rfl]
    simp [Numeral.ofNat, Numeral.number?, habsorb hsmall, h]
  | real => cases h

end Json

end Routespec
