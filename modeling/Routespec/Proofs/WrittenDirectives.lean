import Routespec.Proofs.ArgumentSpacing
import Routespec.Proofs.CommentOrder

/-!
# Directives written back

A directive that is written as a line of its own is read back with its keyword and its arguments,
trimmed. Joined lines end in no white space, so that joining them again changes none of them unless
one of them is continued.
-/

namespace Routespec

namespace Text

theorem dropStart?_append (start t : Text) : dropStart? start (start ++ t) = some t := by
  induction start with
  | nil => rfl
  | cons c start ih => simp [dropStart?, ih]

theorem eq_append_of_dropStart? {start t rest : Text} (h : dropStart? start t = some rest) :
    t = start ++ rest := by
  induction start generalizing t with
  | nil => exact Option.some.inj h
  | cons c start ih =>
    cases t with
    | nil => cases h
    | cons d t =>
      rw [dropStart?] at h
      split at h
      · next hcd => rw [ih h, hcd, List.cons_append]
      · cases h

theorem dropStart?_eq_some {start t rest : Text} :
    dropStart? start t = some rest ↔ t = start ++ rest :=
  ⟨eq_append_of_dropStart?, fun h => h ▸ dropStart?_append start rest⟩

theorem dropEnd?_eq_some {c : Char} {t init : Text} :
    dropEnd? c t = some init ↔ t = init ++ [c] := by
  unfold dropEnd?
  constructor
  · intro h
    split at h
    · next hlast =>
      obtain ⟨rest, rfl⟩ := List.getLast?_eq_some_iff.mp hlast
      rw [List.dropLast_concat, Option.some.injEq] at h
      rw [h]
    · cases h
  · rintro rfl
    rw [List.getLast?_concat, if_pos rfl, List.dropLast_concat]

/-- The text does not end in white space. -/
def EndsSolid (t : Text) : Prop := trimRight t = t

instance (t : Text) : Decidable t.EndsSolid := inferInstanceAs (Decidable (_ = _))

theorem endsSolid_trimRight (t : Text) : EndsSolid (trimRight t) := trimRight_trimRight t

theorem endsSolid_of_trim {t : Text} (h : t.trim = t) : EndsSolid t := by
  rw [← h]
  exact endsSolid_trimRight _

theorem trimLeft_of_trim {t : Text} (h : t.trim = t) : trimLeft t = t := by
  have hcomm : t.trim = trimLeft (trimRight t) := trimRight_trimLeft t
  rw [endsSolid_of_trim h, h] at hcomm
  exact hcomm.symm

theorem EndsSolid.of_append {t u : Text} (h : EndsSolid (t ++ u)) : EndsSolid u := by
  induction t with
  | nil => exact h
  | cons c t ih =>
    unfold EndsSolid at h ih
    rw [List.cons_append, trimRight_cons] at h
    split at h
    · cases h
    · exact ih (List.cons.inj h).2

theorem EndsSolid.of_suffix {t u : Text} (h : EndsSolid u) (hsuffix : t <:+ u) : EndsSolid t := by
  obtain ⟨start, rfl⟩ := hsuffix
  exact h.of_append

theorem EndsSolid.append {u : Text} (h : EndsSolid u) (hne : u ≠ []) (t : Text) :
    EndsSolid (t ++ u) := by
  induction t with
  | nil => exact h
  | cons c t ih =>
    unfold EndsSolid at ih ⊢
    rw [List.cons_append, trimRight_cons, ih, if_neg]
    simp [hne]

end Text

namespace Comment

theorem withoutMarker_suffix (line : Text) : withoutMarker line <:+ line := by
  have htrim : line.trimLeft <:+ line := List.dropWhile_suffix _
  unfold withoutMarker
  dsimp only
  cases hmarker : Text.dropStart? ['/', '/'] line.trimLeft with
  | none => exact htrim
  | some rest =>
    have hrest : rest <:+ line.trimLeft := ⟨_, (Text.eq_append_of_dropStart? hmarker).symm⟩
    exact hrest.trans htrim

theorem endsSolid_resume {start line : Text} (hstart : start.EndsSolid) (hline : line.EndsSolid) :
    (resume start line).EndsSolid := by
  have hrest : (withoutMarker line).trimLeft.EndsSolid :=
    hline.of_suffix ((List.dropWhile_suffix _).trans (withoutMarker_suffix line))
  unfold resume
  dsimp only
  split
  · exact hstart
  · next hne =>
    split
    · exact hrest
    · have hline := hrest.append hne (start ++ [' '])
      rwa [List.append_assoc] at hline

theorem endsSolid_of_broken? {text start : Text} (h : broken? text = some start) :
    start.EndsSolid := by
  obtain ⟨t, -, rfl⟩ := Option.map_eq_some_iff.mp h
  exact Text.endsSolid_trimRight t

/-- The text of a line behind what it continues. -/
def textAfter (pending : Option Text) (line : Text) : Text :=
  pending.elim line.trimRight (resume · line.trimRight)

/-- A line, joined to the one that it continues, is either broken itself or stands by itself. -/
theorem joinFrom_cons (pending : Option Text) (line : Text) (rest : List Text) :
    joinFrom pending (line :: rest) =
      match broken? (textAfter pending line) with
      | some start => joinFrom (some start) rest
      | none => textAfter pending line :: joinFrom none rest := by
  cases pending <;> rfl

theorem endsSolid_textAfter {pending : Option Text}
    (hpending : ∀ start ∈ pending, start.EndsSolid) (line : Text) :
    (textAfter pending line).EndsSolid := by
  have hline := Text.endsSolid_trimRight line
  cases pending with
  | none => exact hline
  | some start => exact endsSolid_resume (hpending start rfl) hline

theorem endsSolid_of_mem_joinFrom {pending : Option Text} {lines : List Text}
    (hpending : ∀ start ∈ pending, start.EndsSolid) :
    ∀ line ∈ joinFrom pending lines, line.EndsSolid := by
  induction lines generalizing pending with
  | nil =>
    cases pending with
    | none => simp [joinFrom]
    | some start => simpa [joinFrom] using hpending start rfl
  | cons line rest ih =>
    have htext := endsSolid_textAfter hpending line
    rw [joinFrom_cons]
    cases hbroken : broken? (textAfter pending line) with
    | some start =>
      refine ih fun found hfound => ?_
      obtain rfl := Option.some.inj hfound
      exact endsSolid_of_broken? hbroken
    | none =>
      rw [List.forall_mem_cons]
      exact ⟨htext, ih fun start hstart => by cases hstart⟩

/-- Joined lines do not end in white space. -/
theorem endsSolid_of_mem_joinLines {lines : List Text} :
    ∀ line ∈ joinLines lines, line.EndsSolid :=
  endsSolid_of_mem_joinFrom fun _ h => by cases h

end Comment

namespace Keyword

theorem word_solid (keyword : Keyword) : ∀ c ∈ keyword.word.toList, isBlank c = false := by
  have hword : keyword.word.toList.all (!isBlank ·) = true := by cases keyword <;> decide
  simpa using hword

end Keyword

namespace Directive

/-- A directive as a line. -/
def written (keyword : Keyword) (args : String) : String :=
  directiveMark ++ keyword.word ++ " " ++ args

theorem toList_written (keyword : Keyword) (args : String) : (written keyword args).toList =
    directiveMark.toList ++ (keyword.word.toList ++ ' ' :: args.toList) := by
  simp [written]

theorem marked?_written (keyword : Keyword) (args : String) :
    marked? (written keyword args).toList =
      some (keyword.word.toList ++ Text.trimRight (' ' :: args.toList)) := by
  have hmark : ∀ c ∈ directiveMark.toList, isBlank c = false := by
    have hall : directiveMark.toList.all (!isBlank ·) = true := by decide
    simpa using hall
  have hleft : Text.trimLeft (written keyword args).toList = (written keyword args).toList := by
    rw [toList_written]
    exact List.dropWhile_cons_of_neg (by decide)
  unfold marked? Text.trim
  rw [hleft, toList_written, Text.trimRight_append_of_solid hmark,
    Text.trimRight_append_of_solid keyword.word_solid, Text.dropStart?_append]

theorem split_written (keyword : Keyword) (args : Text) :
    split (keyword.word.toList ++ Text.trimRight (' ' :: args)) =
      (keyword.word.toList, args.trim) := by
  unfold split
  rw [Text.trimRight_cons]
  by_cases hargs : Text.trimRight args = []
  · have htrim : Text.trim args = [] := by
      rw [← Text.trim_trimRight, hargs]
      rfl
    rw [if_pos ⟨hargs, rfl⟩, List.append_nil, Text.cutAt?_eq_none keyword.word_solid, htrim]
  · rw [if_neg fun h => hargs h.1, Text.cutAt?_append_cons keyword.word_solid rfl]
    dsimp only
    rw [Text.trim_trimRight]

/-- What is written is read back, its arguments trimmed. -/
theorem ofLine_written (owner : String) (keyword : Keyword) (args : String) :
    ofLine owner (written keyword args).toList =
      .ok (some ⟨keyword, trimmed args, trimmed (written keyword args)⟩) := by
  unfold ofLine
  rw [marked?_written]
  dsimp only
  rw [split_written, String.ofList_toList, Keyword.ofWord?_word]
  rfl

end Directive

end Routespec
