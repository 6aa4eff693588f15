import Routespec.Method.Declarations
import Routespec.Proofs.Trimming

/-!
# White space around the arguments of directives

No directive sees white space before or behind its arguments: options are read up to it, clauses
are trimmed once they are split, and a route is made of words. Only the text of one fault has it.
-/

namespace Routespec

namespace Text

variable {p : Char → Bool} {t r : Text}

theorem takeWhile_append_of_neg (hr : ∀ c ∈ r, p c = false) :
    (t ++ r).takeWhile p = t.takeWhile p := by
  induction t with
  | nil =>
    cases r with
    | nil => rfl
    | cons c r =>
      have hc : ¬p c = true := by simp [hr c List.mem_cons_self]
      exact List.takeWhile_cons_of_neg hc
  | cons c t ih => simp [List.takeWhile_cons, ih]

theorem dropWhile_append_of_neg (hr : ∀ c ∈ r, p c = false) :
    (t ++ r).dropWhile p = t.dropWhile p ++ r := by
  induction t with
  | nil =>
    cases r with
    | nil => rfl
    | cons c r =>
      have hc : ¬p c = true := by simp [hr c List.mem_cons_self]
      exact List.dropWhile_cons_of_neg hc
  | cons c t ih =>
    by_cases hc : p c = true
    · simp [hc, ih]
    · simp [hc]

theorem isIdentifierPart_of_isBlank {c : Char} (hc : isBlank c = true) :
    isIdentifierPart c = false := by
  have hval : c.val.toNat = c.toNat := rfl
  simp only [isBlank, Bool.or_eq_true, Bool.and_eq_true, decide_eq_true_eq, beq_iff_eq] at hc
  delta isIdentifierPart Char.isAlphanum Char.isAlpha Char.isUpper Char.isLower Char.isDigit
  simp only [Bool.or_eq_false_iff, Bool.and_eq_false_iff, decide_eq_false_iff_not,
    beq_eq_false_iff_ne, ne_eq, GE.ge, UInt32.le_iff_toNat_le, hval, Char.ext_iff,
    ← UInt32.toNat_inj, UInt32.reduceToNat, Char.reduceVal]
  omega

theorem isIdentifierStart_of_isIdentifierPart {c : Char} (hc : isIdentifierPart c = false) :
    isIdentifierStart c = false := by
  simp only [isIdentifierPart, Char.isAlphanum, Bool.or_eq_false_iff] at hc
  simp [isIdentifierStart, hc]

theorem isIdentifierPart_of_isIdentifier (ht : t.isIdentifier = true) :
    ∀ c ∈ t, isIdentifierPart c = true := by
  cases t with
  | nil => cases ht
  | cons c t =>
    rw [isIdentifier, Bool.and_eq_true, List.all_eq_true] at ht
    refine List.forall_mem_cons.mpr ⟨?_, ht.2⟩
    by_contra hpart
    rw [isIdentifierStart_of_isIdentifierPart (by simpa using hpart)] at ht
    exact absurd ht.1 (by simp)

/-- An identifier is not empty and holds no white space. -/
theorem solid_of_isIdentifier (ht : t.isIdentifier = true) :
    t ≠ [] ∧ ∀ c ∈ t, isBlank c = false := by
  refine ⟨?_, fun c hc => Bool.eq_false_iff.mpr fun hblank => ?_⟩
  · rintro rfl
    cases ht
  · have hpart := isIdentifierPart_of_isIdentifier ht c hc
    rw [isIdentifierPart_of_isBlank hblank] at hpart
    cases hpart

theorem cutAt?_cons (c : Char) (t : Text) : cutAt? p (c :: t) =
    if p c = true then some ([], t) else (cutAt? p t).map fun cut => (c :: cut.1, cut.2) := by
  unfold cutAt?
  by_cases hc : p c = true
  · simp [hc]
  · simp only [hc, Bool.not_false, List.dropWhile_cons_of_pos, List.takeWhile_cons_of_pos]
    cases t.dropWhile (!p ·) <;> simp

/-- Cutting at the first character of a kind. -/
theorem cutAt?_append_cons (ht : ∀ c ∈ t, p c = false) {c : Char} (hc : p c = true) (r : Text) :
    cutAt? p (t ++ c :: r) = some (t, r) := by
  induction t with
  | nil => rw [List.nil_append, cutAt?_cons, if_pos hc]
  | cons d t ih =>
    rw [List.forall_mem_cons] at ht
    rw [List.cons_append, cutAt?_cons, if_neg (by simp [ht.1]), ih ht.2]
    rfl

theorem cutAt?_eq_some {u : Text} : cutAt? p t = some (u, r) ↔
    ∃ c, (∀ d ∈ u, p d = false) ∧ p c = true ∧ t = u ++ c :: r := by
  constructor
  · intro h
    induction t generalizing u with
    | nil => cases h
    | cons d t ih =>
      rw [cutAt?_cons] at h
      split at h
      · next hd =>
        obtain ⟨rfl, rfl⟩ := Prod.mk.inj (Option.some.inj h)
        exact ⟨d, by simp, hd, rfl⟩
      · next hd =>
        obtain ⟨⟨v, rest⟩, hcut, heq⟩ := Option.map_eq_some_iff.mp h
        obtain ⟨rfl, rfl⟩ := Prod.mk.inj heq
        obtain ⟨c, hv, hc, rfl⟩ := ih hcut
        exact ⟨c, List.forall_mem_cons.mpr ⟨by simpa using hd, hv⟩, hc, rfl⟩
  · rintro ⟨c, hu, hc, rfl⟩
    exact cutAt?_append_cons hu hc r

theorem cutAt?_eq_none (hr : ∀ c ∈ r, p c = false) : cutAt? p r = none := by
  induction r with
  | nil => rfl
  | cons c r ih =>
    rw [List.forall_mem_cons] at hr
    rw [cutAt?_cons, if_neg (by simp [hr.1]), ih hr.2, Option.map_none]

theorem cutAt?_append_of_neg (hr : ∀ c ∈ r, p c = false) :
    cutAt? p (t ++ r) = (cutAt? p t).map fun cut => (cut.1, cut.2 ++ r) := by
  induction t with
  | nil => exact cutAt?_eq_none hr
  | cons c t ih =>
    rw [List.cons_append, cutAt?_cons, cutAt?_cons, ih]
    split
    · rfl
    · rw [Option.map_map, Option.map_map]
      rfl

theorem ne_of_isBlank {c d : Char} (hc : isBlank c = true) (hd : isBlank d = false) : c ≠ d := by
  rintro rfl
  rw [hd] at hc
  cases hc

theorem forall_mem_of_isBlankText {q : Char → Bool} (hq : ∀ c, isBlank c = true → q c = false)
    (hr : isBlankText r = true) : ∀ c ∈ r, q c = false :=
  fun c hc => hq c (List.all_eq_true.mp hr c hc)

theorem spanIdentifier_append_of_blank (t : Text) (hr : isBlankText r = true) :
    spanIdentifier (t ++ r) = ((spanIdentifier t).1, (spanIdentifier t).2 ++ r) := by
  have hpart := forall_mem_of_isBlankText (fun _ => isIdentifierPart_of_isBlank) hr
  cases t with
  | nil =>
    cases r with
    | nil => rfl
    | cons c r =>
      have hc : isBlank c = true := List.all_eq_true.mp hr c List.mem_cons_self
      simp [spanIdentifier, isIdentifierStart_of_isIdentifierPart (isIdentifierPart_of_isBlank hc)]
  | cons c t =>
    simp only [List.cons_append, spanIdentifier]
    split
    · rw [takeWhile_append_of_neg hpart, dropWhile_append_of_neg hpart]
    · rfl

/-- What does not see white space around the parts of a text does not see it around the text. -/
theorem mapM_splitUnquoted_trim {β : Type} {f : Text → Checked β}
    (hf : ∀ part, f (trim part) = f part) {sep : Char} (hsep : isBlank sep = false) (t : Text) :
    (splitUnquoted sep (trim t)).mapM f = (splitUnquoted sep t).mapM f := by
  have hcomp : f = f ∘ trim := funext fun part => (hf part).symm
  rw [hcomp, ← List.mapM_map, ← List.mapM_map, map_trim_splitUnquoted_trim hsep]

end Text

namespace OptionPair

variable {t r : Text}

theorem endsHere_append (hr : Text.isBlankText r = true) : endsHere (t ++ r) = endsHere t := by
  cases t with
  | cons c t => rfl
  | nil =>
    cases r with
    | nil => rfl
    | cons c r => exact List.all_eq_true.mp hr c List.mem_cons_self

/-- The options of a text, pair by pair. -/
theorem readAll_eq (t : Text) : readAll t =
    if t.trimLeft = [] then .ok []
    else match scan? t.trimLeft with
      | some (pair, rest) => (readAll rest).map (pair :: ·)
      | none => fail (.unmatchedOptions (String.ofList t.trimLeft.trimRight)) := by
  rw [readAll]
  congr 1
  split <;> simp only [*]

/-- White space behind a value is left over. -/
theorem scanValue?_append (hr : Text.isBlankText r = true) :
    scanValue? (t ++ r) = (scanValue? t).map fun found => (found.1, found.2 ++ r) := by
  have hquote := Text.forall_mem_of_isBlankText (q := (· = '\''))
    (fun c hc => by simpa using Text.ne_of_isBlank hc (by decide)) hr
  cases t with
  | nil =>
    cases r with
    | nil => rfl
    | cons c r =>
      have hc : isBlank c = true := List.all_eq_true.mp hr c List.mem_cons_self
      have hne : c ≠ '\'' := Text.ne_of_isBlank hc (by decide)
      simp [scanValue?, hc, hne]
  | cons c t =>
    simp only [List.cons_append, scanValue?]
    split
    · rw [Text.cutAt?_append_of_neg hquote]
      cases Text.cutAt? (· = '\'') t with
      | none => rfl
      | some cut => simp [Option.filter_some, endsHere_append hr, apply_ite]
    · split
      · rfl
      · have hblank : ∀ c ∈ r, (!isBlank c) = false := by simpa [Text.isBlankText] using hr
        rw [Text.takeWhile_append_of_neg hblank, Text.dropWhile_append_of_neg hblank]
        rfl

theorem scan?_append (hr : Text.isBlankText r = true) :
    scan? (t ++ r) = (scan? t).map fun found => (found.1, found.2 ++ r) := by
  have hequals := Text.forall_mem_of_isBlankText (q := (· = '='))
    (fun c hc => by simpa using Text.ne_of_isBlank hc (by decide)) hr
  unfold scan?
  rw [Text.spanIdentifier_append_of_blank t hr]
  generalize t.spanIdentifier = span
  obtain ⟨name, rest⟩ := span
  cases name with
  | nil => rfl
  | cons c key =>
    cases rest with
    | nil =>
      cases r with
      | nil => rfl
      | cons d r =>
        have hd : d ≠ '=' := by simpa using hequals d List.mem_cons_self
        simp [hd]
    | cons d rest =>
      by_cases hd : d = '='
      · subst hd
        simp [scanValue?_append hr, Function.comp_def]
      · simp [hd]

theorem readAll_append (hr : Text.isBlankText r = true) (t : Text) :
    readAll (t ++ r) = readAll t := by
  -- the recursion goes on behind each pair, so the white space stays behind the rest
  induction t using readAll.induct with
  | case1 t ht => rw [readAll_eq, readAll_eq, Text.trimLeft_append_of_blank hr, ht, if_pos rfl]
  | case2 t ht pair rest hscan _ ih =>
    have hne : t.trimLeft ++ r ≠ [] := by simp [ht]
    rw [readAll_eq, readAll_eq t, Text.trimLeft_append_of_blank hr, if_neg ht, if_neg hne,
      if_neg ht, scan?_append hr, hscan, Option.map_some]
    simp only [ih]
  | case3 t ht hscan =>
    have hne : t.trimLeft ++ r ≠ [] := by simp [ht]
    rw [readAll_eq, readAll_eq t, Text.trimLeft_append_of_blank hr, if_neg ht, if_neg hne,
      if_neg ht, scan?_append hr, hscan, Option.map_none, Text.trimRight_append_of_blank hr]

/-- Options are read as they are without the white space around them. -/
theorem readAll_trim (t : Text) : readAll t.trim = readAll t := by
  refine Text.apply_trim (fun c t hc => ?_) (fun t r hr => readAll_append hr t) t
  have hleft : Text.trimLeft (c :: t) = Text.trimLeft t := List.dropWhile_cons_of_pos hc
  rw [readAll_eq, readAll_eq, hleft]

/-- Groups are read as they are without the white space around them. -/
theorem readGroups_trim (t : Text) : readGroups t.trim = readGroups t := by
  unfold readGroups
  rw [Text.isBlankText_trim, Text.trim_trim]
  refine if_congr Iff.rfl rfl (Text.mapM_splitUnquoted_trim (fun group => ?_) (by decide) t)
  rw [Text.isBlankText_trim, readAll_trim]

end OptionPair

/-- A string without the white space around it. -/
def trimmed (s : String) : String := String.ofList (Text.trim s.toList)

@[simp]
theorem toList_trimmed (s : String) : (trimmed s).toList = Text.trim s.toList :=
  String.toList_ofList

theorem splitClause_trim (clause : Text) : splitClause clause.trim = splitClause clause := by
  unfold splitClause
  rw [Text.trim_trim]

theorem ArgumentClause.read_trim (clause : Text) : read clause.trim = read clause := by
  unfold read
  rw [splitClause_trim]

theorem ArgumentClause.readAll_trimmed (args : String) : readAll (trimmed args) = readAll args := by
  unfold readAll
  rw [toList_trimmed, Text.isBlankText_trim, Text.mapM_splitUnquoted_trim read_trim (by decide)]

theorem BodyRule.read_trimmed (args : String) : read (trimmed args) = read args := by
  unfold read
  rw [toList_trimmed, Text.trim_trim]

theorem SuccessRule.read_trimmed (args : String) : read (trimmed args) = read args := by
  unfold read
  rw [toList_trimmed, OptionPair.readAll_trim]

theorem DocumentRule.read_trimmed (args : String) : read (trimmed args) = read args := by
  unfold read
  rw [toList_trimmed, OptionPair.readAll_trim]

/-- The text of a malformed route holds its white space, and nothing else does. -/
theorem Route.read_trimmed (args : String) :
    (read (trimmed args)).mapError Fault.kind = (read args).mapError Fault.kind := by
  unfold read
  rw [toList_trimmed, Text.words_trim]
  split
  · rfl
  · rfl

end Routespec
