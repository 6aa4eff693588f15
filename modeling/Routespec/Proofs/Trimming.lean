import Mathlib.Data.List.DropRight
import Routespec.Text.Quoting

/-!
# White space around a text

Trimming takes white space away from both ends, and nothing else. What looks at words, or trims the
parts of a split, cannot tell a text from its trimmed form.
-/

namespace Routespec

namespace Text

theorem trimRight_cons (c : Char) (t : Text) :
    trimRight (c :: t) = if trimRight t = [] ∧ isBlank c = true then [] else c :: trimRight t := by
  unfold trimRight
  rw [List.reverse_cons, List.dropWhile_append]
  by_cases ht : t.reverse.dropWhile isBlank = []
  · by_cases hc : isBlank c = true <;> simp [ht, hc]
  · simp [ht]

theorem trimRight_trimLeft (t : Text) : trimRight (trimLeft t) = trimLeft (trimRight t) := by
  induction t with
  | nil => rfl
  | cons c t ih =>
    by_cases hc : isBlank c = true
    · have hleft : trimLeft (c :: t) = trimLeft t := List.dropWhile_cons_of_pos hc
      rw [hleft, ih, trimRight_cons]
      by_cases ht : trimRight t = []
      · simp [ht, hc]
      · rw [if_neg fun h => ht h.1]
        exact (List.dropWhile_cons_of_pos hc).symm
    · have hleft (rest : Text) : trimLeft (c :: rest) = c :: rest := List.dropWhile_cons_of_neg hc
      rw [hleft, trimRight_cons, if_neg fun h => hc h.2, hleft]

theorem trimRight_trimRight (t : Text) : trimRight (trimRight t) = trimRight t := by
  unfold trimRight
  rw [List.reverse_reverse, List.dropWhile_idempotent]

theorem trimLeft_trimLeft (t : Text) : trimLeft (trimLeft t) = trimLeft t :=
  List.dropWhile_idempotent ..

/-- White space at the end of a text does not matter once the text is trimmed. -/
theorem trim_trimRight (t : Text) : trim (trimRight t) = trim t := by
  unfold trim
  rw [trimRight_trimLeft, trimRight_trimRight, trimRight_trimLeft]

/-- White space at the start of a text does not matter once the text is trimmed. -/
theorem trim_trimLeft (t : Text) : trim (trimLeft t) = trim t := by
  unfold trim
  rw [trimLeft_trimLeft]

theorem trim_trim (t : Text) : trim (trim t) = trim t := by
  have hright : trim (trim t) = trim (trimLeft t) := trim_trimRight (trimLeft t)
  rw [hright, trim_trimLeft]

theorem trim_cons_of_blank {c : Char} (hc : isBlank c = true) (t : Text) :
    trim (c :: t) = trim t := by
  have hleft : trimLeft (c :: t) = trimLeft t := List.dropWhile_cons_of_pos hc
  unfold trim
  rw [hleft]

theorem trimLeft_of_blank {r : Text} (hr : isBlankText r = true) : trimLeft r = [] :=
  List.dropWhile_eq_nil_iff.mpr fun c hc => List.all_eq_true.mp hr c hc

theorem trimLeft_of_blank_append {lead : Text} (hlead : isBlankText lead = true) (t : Text) :
    trimLeft (lead ++ t) = trimLeft t :=
  List.dropWhile_append_of_pos (List.all_eq_true.mp hlead)

theorem trimLeft_append_of_blank {r : Text} (hr : isBlankText r = true) (t : Text) :
    trimLeft (t ++ r) = if trimLeft t = [] then [] else trimLeft t ++ r := by
  unfold trimLeft
  rw [List.dropWhile_append]
  simp only [List.isEmpty_iff]
  exact if_congr Iff.rfl (trimLeft_of_blank hr) rfl

theorem trimRight_append_of_blank {r : Text} (hr : isBlankText r = true) (t : Text) :
    trimRight (t ++ r) = trimRight t := by
  have hreverse : trimLeft r.reverse = [] :=
    trimLeft_of_blank (by rwa [isBlankText, List.all_reverse])
  unfold trimRight
  rw [List.reverse_append, List.dropWhile_append]
  change (if (trimLeft r.reverse).isEmpty then _ else _ : Text).reverse = _
  rw [hreverse]
  rfl

/-- Nothing is taken away up to the last solid character. -/
theorem trimRight_append_cons_of_solid (t : Text) {c : Char} (hc : isBlank c = false) (u : Text) :
    trimRight (t ++ c :: u) = t ++ c :: trimRight u := by
  induction t with
  | nil => rw [List.nil_append, trimRight_cons, if_neg (by simp [hc]), List.nil_append]
  | cons d t ih => rw [List.cons_append, trimRight_cons, ih, if_neg (by simp), List.cons_append]

theorem trimRight_append_of_solid {w : Text} (hw : ∀ c ∈ w, isBlank c = false) (t : Text) :
    trimRight (w ++ t) = w ++ trimRight t := by
  induction w with
  | nil => rfl
  | cons c w ih =>
    rw [List.forall_mem_cons] at hw
    rw [List.cons_append, trimRight_cons, ih hw.2, if_neg (by simp [hw.1])]
    rfl

theorem trim_append_of_blank {r : Text} (hr : isBlankText r = true) (t : Text) :
    trim (t ++ r) = trim t := by
  rw [← trim_trimRight, trimRight_append_of_blank hr, trim_trimRight]

theorem trim_of_blank_append {lead : Text} (hlead : isBlankText lead = true) (t : Text) :
    trim (lead ++ t) = trim t := by
  rw [trim, trimLeft_of_blank_append hlead, trim]

/-- Only the white space behind a text that starts solid is trimmed. -/
theorem trim_append_of_solid {w : Text} (hw : ∀ c ∈ w, isBlank c = false) (hne : w ≠ [])
    (t : Text) : trim (w ++ t) = w ++ trimRight t := by
  obtain ⟨c, w, rfl⟩ := List.exists_cons_of_ne_nil hne
  have hleft : trimLeft (c :: w ++ t) = c :: w ++ t :=
    List.dropWhile_cons_of_neg (by simp [hw c List.mem_cons_self])
  rw [trim, hleft, trimRight_append_of_solid hw]

theorem exists_eq_trimRight_append (t : Text) :
    ∃ r, isBlankText r = true ∧ t = trimRight t ++ r := by
  refine ⟨(t.reverse.takeWhile isBlank).reverse, ?_, ?_⟩
  · rw [isBlankText, List.all_reverse]
    exact List.all_takeWhile
  · unfold trimRight
    rw [← List.reverse_append, List.takeWhile_append_dropWhile, List.reverse_reverse]

/-- A text is its trimmed form with white space around it. -/
theorem exists_eq_append_trim (t : Text) :
    ∃ l r, isBlankText l = true ∧ isBlankText r = true ∧ t = l ++ trim t ++ r := by
  obtain ⟨r, hr, hright⟩ := exists_eq_trimRight_append (trimLeft t)
  refine ⟨t.takeWhile isBlank, r, List.all_takeWhile, hr, ?_⟩
  have hleft : t.takeWhile isBlank ++ trimLeft t = t := List.takeWhile_append_dropWhile
  rw [List.append_assoc, trim, ← hright, hleft]

/-- What does not see white space before or behind a text does not see whether it is trimmed. -/
theorem apply_trim {α : Type} {f : Text → α}
    (hleft : ∀ c t, isBlank c = true → f (c :: t) = f t)
    (hright : ∀ t r, isBlankText r = true → f (t ++ r) = f t) (t : Text) : f (trim t) = f t := by
  obtain ⟨l, r, hl, hr, ht⟩ := exists_eq_append_trim t
  have hlead (u : Text) : f (l ++ u) = f u := by
    clear ht
    induction l with
    | nil => rfl
    | cons c l ih =>
      rw [isBlankText, List.all_cons, Bool.and_eq_true] at hl
      rw [List.cons_append, hleft c _ hl.1, ih hl.2]
  calc f (trim t) = f (l ++ trim t) := (hlead _).symm
    _ = f (l ++ trim t ++ r) := (hright _ r hr).symm
    _ = f t := by rw [← ht]

theorem isBlankText_trim (t : Text) : isBlankText (trim t) = isBlankText t := by
  refine apply_trim (fun c t hc => ?_) (fun t r hr => ?_) t
  · simp [isBlankText, hc]
  · rw [isBlankText] at hr ⊢
    rw [List.all_append, hr, Bool.and_true]
    rfl

theorem isBlankText_append {t : Text} (ht : isBlankText t = false) (u : Text) :
    isBlankText (t ++ u) = false := by
  rw [isBlankText] at ht ⊢
  rw [List.all_append, ht, Bool.false_and]

theorem words_append_of_blank {c : Char} (hc : isBlank c = true) (t u : Text) :
    words (t ++ c :: u) = words t ++ words u := by
  unfold words
  rw [List.splitOnP_append_cons t u hc, List.filter_append]

theorem words_trim (t : Text) : words (trim t) = words t := by
  have hleft (c : Char) (t : Text) (hc : isBlank c = true) : words (c :: t) = words t :=
    words_append_of_blank hc [] t
  refine apply_trim hleft (fun t r hr => ?_) t
  -- white space has no words
  have hnone : ∀ r : Text, isBlankText r = true → words r = [] := by
    intro r hr
    induction r with
    | nil => rfl
    | cons c r ih =>
      rw [isBlankText, List.all_cons, Bool.and_eq_true] at hr
      rw [hleft c r hr.1, ih hr.2]
  cases r with
  | nil => rw [List.append_nil]
  | cons c r =>
    rw [isBlankText, List.all_cons, Bool.and_eq_true] at hr
    rw [words_append_of_blank hr.1, hnone r hr.2, List.append_nil]

section Split

variable {sep : Char} (hsep : isBlank sep = false)

include hsep

theorem splitFrom_cons_of_blank {c : Char} (hc : isBlank c = true) (quoted : Bool) (t : Text) :
    splitFrom sep quoted (c :: t) = (splitFrom sep quoted t).modifyHead (c :: ·) := by
  have hquote : c ≠ '\'' := by
    rintro rfl
    exact absurd hc (by decide)
  have hne : c ≠ sep := by
    rintro rfl
    rw [hsep] at hc
    cases hc
  rw [splitFrom_cons_of_not_cut fun h => hne h.1, if_neg hquote]

theorem splitFrom_of_blank {r : Text} (hr : isBlankText r = true) (quoted : Bool) :
    splitFrom sep quoted r = [r] := by
  induction r with
  | nil => rfl
  | cons c r ih =>
    rw [isBlankText, List.all_cons, Bool.and_eq_true] at hr
    rw [splitFrom_cons_of_blank hsep hr.1, ih hr.2]
    rfl

/-- A text with something solid in one of its parts is not blank. -/
theorem isBlankText_of_mem_splitUnquoted {part t : Text} (h : part ∈ splitUnquoted sep t)
    (hpart : isBlankText part = false) : isBlankText t = false := by
  refine Bool.eq_false_iff.mpr fun hblank => ?_
  rw [splitUnquoted, splitFrom_of_blank hsep hblank, List.mem_singleton] at h
  rw [h, hblank] at hpart
  cases hpart

/-- White space at the end of a text is at the end of its last part. -/
theorem map_trimRight_splitFrom_append {r : Text} (hr : isBlankText r = true) (quoted : Bool)
    (t : Text) : (splitFrom sep quoted (t ++ r)).map trimRight =
      (splitFrom sep quoted t).map trimRight := by
  have hmodify (c : Char) {xs ys : List Text} (h : xs.map trimRight = ys.map trimRight) :
      (xs.modifyHead (c :: ·)).map trimRight = (ys.modifyHead (c :: ·)).map trimRight := by
    cases xs with
    | nil => simpa using h
    | cons x xs =>
      cases ys with
      | nil => simp at h
      | cons y ys =>
        obtain ⟨hhead, htail⟩ := List.cons.inj h
        simp [trimRight_cons, hhead, htail]
  induction t generalizing quoted with
  | nil =>
    have hnil : trimRight r = [] := trimRight_append_of_blank hr []
    rw [List.nil_append, splitFrom_of_blank hsep hr, List.map_singleton, hnil]
    rfl
  | cons c t ih =>
    rw [List.cons_append, splitFrom, splitFrom]
    split_ifs
    · exact hmodify c (ih _)
    · rw [List.map_cons, List.map_cons, ih]
    · exact hmodify c (ih _)

/-- The parts of a text, trimmed, are those of the trimmed text. -/
theorem map_trim_splitUnquoted_trim (t : Text) :
    (splitUnquoted sep (trim t)).map trim = (splitUnquoted sep t).map trim := by
  refine apply_trim (f := fun t => (splitUnquoted sep t).map trim) (fun c t hc => ?_)
    (fun t r hr => ?_) t
  · unfold splitUnquoted
    rw [splitFrom_cons_of_blank hsep hc]
    cases splitFrom sep false t with
    | nil => rfl
    | cons part parts => simp [trim_cons_of_blank hc]
  · have htrim : trim = trim ∘ trimRight := funext fun t => (trim_trimRight t).symm
    have hright := map_trimRight_splitFrom_append hsep hr false t
    unfold splitUnquoted
    rw [htrim, ← List.map_map, ← List.map_map, hright]

end Split

end Text

end Routespec
