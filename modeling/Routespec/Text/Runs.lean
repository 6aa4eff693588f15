/-!
# Longest runs

The longest run of accepted elements at the start of a list ends before the first one that is not
accepted. What stands behind that one does not matter.
-/

namespace Routespec

namespace Text

variable {α : Type} {p : α → Bool} {t rest : List α}

theorem takeWhile_exact (ht : ∀ c ∈ t, p c = true) (hrest : ∀ c ∈ rest.head?, p c = false) :
    (t ++ rest).takeWhile p = t := by
  rw [List.takeWhile_append_of_pos ht]
  cases rest with
  | nil => exact List.append_nil t
  | cons c rest =>
    have hc : ¬p c = true := by simp [hrest c rfl]
    rw [List.takeWhile_cons_of_neg hc, List.append_nil]

theorem dropWhile_exact (ht : ∀ c ∈ t, p c = true) (hrest : ∀ c ∈ rest.head?, p c = false) :
    (t ++ rest).dropWhile p = rest := by
  rw [List.dropWhile_append_of_pos ht]
  cases rest with
  | nil => rfl
  | cons c rest =>
    have hc : ¬p c = true := by simp [hrest c rfl]
    exact List.dropWhile_cons_of_neg hc

theorem head?_dropWhile (p : α → Bool) (t : List α) :
    ∀ c ∈ (t.dropWhile p).head?, p c = false := by
  intro c hc
  have hnot := List.head?_dropWhile_not p t
  rw [Option.mem_def.mp hc] at hnot
  simpa using hnot

end Text

end Routespec
