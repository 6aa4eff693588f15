import Routespec.Text.Blank

/-!
# Splitting outside quotes

Single quotes come in pairs; a separator between the two quotes of a pair does not separate. An
opening quote that is never closed reaches to the end of the text.
-/

namespace Routespec

namespace Text

/-- Split at `sep` wherever `quoted`, toggled by each single quote, is false. -/
def splitFrom (sep : Char) (quoted : Bool) : Text → List Text
  | [] => [[]]
  | c :: rest =>
    if c = '\'' then (splitFrom sep (!quoted) rest).modifyHead (c :: ·)
    else if c = sep ∧ quoted = false then [] :: splitFrom sep quoted rest
    else (splitFrom sep quoted rest).modifyHead (c :: ·)

/-- The parts of a text between the separators that stand outside single quotes. -/
def splitUnquoted (sep : Char) (t : Text) : List Text := splitFrom sep false t

theorem splitFrom_cons_of_cut {sep : Char} (hsep : sep ≠ '\'') (t : Text) :
    splitFrom sep false (sep :: t) = [] :: splitFrom sep false t := by
  rw [splitFrom, if_neg hsep, if_pos ⟨rfl, rfl⟩]

/-- A character that does not cut is taken into the first part. -/
theorem splitFrom_cons_of_not_cut {sep : Char} {quoted : Bool} {c : Char}
    (hc : ¬(c = sep ∧ quoted = false)) (t : Text) : splitFrom sep quoted (c :: t) =
      (splitFrom sep (if c = '\'' then !quoted else quoted) t).modifyHead (c :: ·) := by
  by_cases hquote : c = '\''
  · rw [splitFrom, if_pos hquote, if_pos hquote]
  · rw [splitFrom, if_neg hquote, if_neg hquote, if_neg hc]

end Text

end Routespec
