import Mathlib.Data.List.SplitBy
import Routespec.Proofs.WrittenDirectives

/-!
# Groups of continued lines

The lines of a comment fall into groups, each of which ends at the first line that does not end in a
backslash. What the lines of a group say, without comment markers and the backslashes that break
them, makes one joined line.

Only one backslash is taken away from each line, though, and whether a line goes on is decided by
the text joined so far. A line with two backslashes at its end may therefore leave one of them at
the end of its group, where the group is then taken to go on, or the backslash is kept if there is
no more to go on with. Where no group leaves a backslash, each of them makes one line, none of these
ends in a backslash, and joining them again changes nothing.
-/

namespace Routespec

namespace Text

theorem trimRight_append_of_ne_nil (t : Text) {u : Text} (hu : trimRight u ≠ []) :
    trimRight (t ++ u) = t ++ trimRight u := by
  induction t with
  | nil => rfl
  | cons c t ih =>
    rw [List.cons_append, trimRight_cons, ih, if_neg fun h => ?_, List.cons_append]
    exact hu (List.append_eq_nil_iff.mp h.1).2

theorem isBlankText_of_trimRight {t : Text} (h : trimRight t = []) : isBlankText t = true := by
  obtain ⟨r, hr, ht⟩ := exists_eq_trimRight_append t
  rw [ht, h]
  exact hr

/-- Two texts with a space between them, if both hold something. -/
def glue (start rest : Text) : Text :=
  if rest = [] then start else if start = [] then rest else start ++ ' ' :: rest

@[simp]
theorem glue_nil (t : Text) : glue t [] = t := rfl

@[simp]
theorem nil_glue (t : Text) : glue [] t = t := by
  unfold glue
  split
  · next h => exact h.symm
  · rfl

theorem glue_of_ne_nil {start rest : Text} (hstart : start ≠ []) (hrest : rest ≠ []) :
    glue start rest = start ++ ' ' :: rest := by
  rw [glue, if_neg hrest, if_neg hstart]

theorem glue_assoc (t u v : Text) : glue (glue t u) v = glue t (glue u v) := by
  by_cases hv : v = []
  · simp [hv]
  by_cases hu : u = []
  · simp [hu]
  by_cases ht : t = []
  · simp [ht]
  rw [glue_of_ne_nil ht hu, glue_of_ne_nil hu hv, glue_of_ne_nil (by simp) hv,
    glue_of_ne_nil ht (by simp), List.append_assoc]
  rfl

theorem getLast?_glue {start rest : Text} (hrest : rest ≠ []) :
    (glue start rest).getLast? = rest.getLast? := by
  by_cases hstart : start = []
  · rw [hstart, nil_glue]
  · rw [glue_of_ne_nil hstart hrest, List.getLast?_append_of_ne_nil _ (by simp),
      List.getLast?_cons_of_ne_nil hrest]

/-- The texts that hold something, with a space between each two. -/
def spaced (ts : List Text) : Text := [' '].intercalate (ts.filter (· ≠ []))

@[simp]
theorem spaced_nil : spaced [] = [] := rfl

theorem spaced_cons (t : Text) (ts : List Text) : spaced (t :: ts) = glue t (spaced ts) := by
  unfold spaced
  by_cases ht : t = []
  · rw [List.filter_cons_of_neg (by simp [ht]), ht, nil_glue]
  rw [List.filter_cons_of_pos (by simp [ht])]
  have hheld : ∀ u ∈ ts.filter (· ≠ []), u ≠ [] := fun u hu => by simpa using List.of_mem_filter hu
  cases hts : ts.filter (· ≠ []) with
  | nil => simp [List.intercalate]
  | cons u us =>
    rw [hts, List.forall_mem_cons] at hheld
    have hrest : [' '].intercalate (u :: us) ≠ [] := by
      cases us <;> simp [List.intercalate, hheld.1]
    rw [glue_of_ne_nil ht hrest]
    simp [List.intercalate]

theorem spaced_append (ts us : List Text) : spaced (ts ++ us) = glue (spaced ts) (spaced us) := by
  induction ts with
  | nil => simp
  | cons t ts ih => rw [List.cons_append, spaced_cons, spaced_cons, ih, glue_assoc]

/-- A spaced text ends as the last text does that holds something. -/
theorem getLast?_spaced (ts : List Text) :
    (spaced ts).getLast? = (ts.filter (· ≠ [])).getLast?.bind List.getLast? := by
  induction ts using List.reverseRecOn with
  | nil => rfl
  | append_singleton ts t ih =>
    rw [spaced_append, spaced_cons, spaced_nil, glue_nil, List.filter_append]
    by_cases ht : t = []
    · rw [ht, glue_nil, ih]
      simp
    · rw [getLast?_glue ht]
      simp [ht]

end Text

namespace Comment

/-- The line is broken: its text ends in a backslash. -/
def isBroken (line : Text) : Bool := line.trimRight.getLast? = some '\\'

/-- The lines in groups, each of which ends at the first line that is not broken. -/
def groups (lines : List Text) : List (List Text) := lines.splitBy fun line _ => isBroken line

/-- The text without the backslash that breaks it, if one does. -/
def unbroken (text : Text) : Text := (broken? text).getD text

/-- What a line adds to the one that it continues. -/
def continuation (line : Text) : Text := unbroken (withoutMarker line.trimRight).trimLeft

/-- What the lines of a group say. -/
def pieces : List Text → List Text
  | [] => []
  | line :: rest => unbroken line.trimRight :: rest.map continuation

/-- The line that a group makes: what its lines say, with a space between each two. -/
def unite (group : List Text) : Text := Text.spaced (pieces group)

/-- The group leaves a backslash: the last of its lines that says anything has another one before
that which breaks it. -/
def LeavesBackslash (group : List Text) : Prop :=
  ∃ piece, ((pieces group).filter (· ≠ [])).getLast? = some piece ∧ piece.getLast? = some '\\'

section Breaks

variable {text start line : Text}

theorem broken?_eq_none : broken? text = none ↔ text.getLast? ≠ some '\\' := by
  simp [broken?, Text.dropEnd?]

theorem isBroken_eq_false_iff : isBroken line = false ↔ broken? line.trimRight = none := by
  rw [broken?_eq_none, isBroken, decide_eq_false_iff_not]

theorem broken?_of_getLast? (h : text.getLast? = some '\\') :
    broken? text = some (Text.trimRight text.dropLast) := by
  simp [broken?, Text.dropEnd?, h]

theorem broken?_append_backslash (t : Text) : broken? (t ++ ['\\']) = some t.trimRight := by
  rw [broken?_of_getLast? (by simp), List.dropLast_concat]

theorem unbroken_of_broken? (h : broken? text = some start) : unbroken text = start := by
  rw [unbroken, h]
  rfl

theorem unbroken_of_not_broken (h : broken? text = none) : unbroken text = text := by
  rw [unbroken, h]
  rfl

theorem unbroken_append_backslash (t : Text) : unbroken (t ++ ['\\']) = t.trimRight :=
  unbroken_of_broken? (broken?_append_backslash t)

theorem exists_of_isBroken (h : isBroken line = true) : ∃ t, line.trimRight = t ++ ['\\'] :=
  ⟨line.trimRight.dropLast, (List.dropLast_append_getLast? _ (of_decide_eq_true h)).symm⟩

theorem trimLeft_append_backslash (t : Text) :
    Text.trimLeft (t ++ ['\\']) = t.trimLeft ++ ['\\'] := by
  unfold Text.trimLeft
  rw [List.dropWhile_append]
  split
  · next h => rw [List.isEmpty_iff.mp h]; rfl
  · rfl

/-- What starts with no slash is no part of a comment marker before it. -/
theorem withoutMarker_append {u : Text} (hu : u.head? ≠ some '/')
    (htrim : Text.trimLeft (line ++ u) = line.trimLeft ++ u) :
    withoutMarker (line ++ u) = withoutMarker line ++ u := by
  have hdrop (t : Text) : Text.dropStart? ['/', '/'] (t ++ u) =
      (Text.dropStart? ['/', '/'] t).map (· ++ u) := by
    rcases t with _ | ⟨c, _ | ⟨d, t⟩⟩
    · cases u with
      | nil => rfl
      | cons e u => simp_all [Text.dropStart?, eq_comm]
    · cases u with
      | nil => simp [Text.dropStart?]
      | cons e u => simp_all [Text.dropStart?, eq_comm]
    · simp only [List.cons_append, Text.dropStart?]
      split_ifs <;> rfl
  unfold withoutMarker
  dsimp only
  rw [htrim, hdrop]
  cases Text.dropStart? ['/', '/'] line.trimLeft <;> rfl

theorem withoutMarker_append_backslash (t : Text) :
    withoutMarker (t ++ ['\\']) = withoutMarker t ++ ['\\'] :=
  withoutMarker_append (by decide) (trimLeft_append_backslash t)

/-- What a broken line adds is right-trimmed once its backslash is gone. -/
theorem continuation_of_trimRight {t : Text} (h : line.trimRight = t ++ ['\\']) :
    continuation line = ((withoutMarker t).trimLeft).trimRight := by
  rw [continuation, h, withoutMarker_append_backslash, trimLeft_append_backslash,
    unbroken_append_backslash]

theorem continuation_of_not_isBroken (h : isBroken line = false) :
    continuation line = (withoutMarker line.trimRight).trimLeft := by
  rw [isBroken_eq_false_iff, broken?_eq_none] at h
  refine unbroken_of_not_broken (broken?_eq_none.mpr fun hlast => h ?_)
  obtain ⟨lead, hlead⟩ : (withoutMarker line.trimRight).trimLeft <:+ line.trimRight :=
    (List.dropWhile_suffix _).trans (withoutMarker_suffix _)
  have hne : (withoutMarker line.trimRight).trimLeft ≠ [] := by
    rintro hnil
    rw [hnil] at hlast
    cases hlast
  rw [← hlead, List.getLast?_append_of_ne_nil _ hne, hlast]

end Breaks

/-- What a line makes behind `pending`, without the backslash that breaks it. -/
def pieceAfter (pending : Option Text) (line : Text) : Text :=
  pending.elim (unbroken line.trimRight) (Text.glue · (continuation line))

/-- What lines make behind `pending`. -/
def unitedAfter : Option Text → List Text → Text
  | none, group => unite group
  | some start, rest => Text.glue start (Text.spaced (rest.map continuation))

theorem unitedAfter_cons (pending : Option Text) (line : Text) (rest : List Text) :
    unitedAfter pending (line :: rest) = unitedAfter (some (pieceAfter pending line)) rest := by
  cases pending with
  | none => exact Text.spaced_cons _ _
  | some start =>
    simp only [unitedAfter, pieceAfter, Option.elim_some, List.map_cons]
    rw [Text.spaced_cons, Text.glue_assoc]

section Steps

variable {pending : Option Text} {line : Text}

theorem textAfter_of_not_isBroken (h : isBroken line = false) :
    textAfter pending line = pieceAfter pending line := by
  cases pending with
  | none => exact (unbroken_of_not_broken (isBroken_eq_false_iff.mp h)).symm
  | some start => rw [pieceAfter, Option.elim_some, continuation_of_not_isBroken h]; rfl

/-- A broken line goes on with what it makes, up to its backslash. -/
theorem broken?_textAfter (hpending : ∀ start ∈ pending, start.EndsSolid)
    (h : isBroken line = true) :
    broken? (textAfter pending line) = some (pieceAfter pending line) := by
  obtain ⟨t, ht⟩ := exists_of_isBroken h
  cases pending with
  | none =>
    have htext : textAfter none line = t ++ ['\\'] := ht
    rw [htext, broken?_append_backslash, pieceAfter, Option.elim_none, ht,
      unbroken_append_backslash]
  | some start =>
    have hstart : start.trimRight = start := hpending start rfl
    have htext : textAfter (some start) line =
        Text.glue start ((withoutMarker t).trimLeft ++ ['\\']) := by
      have hresume : textAfter (some start) line =
          Text.glue start (withoutMarker line.trimRight).trimLeft := rfl
      rw [hresume, ht, withoutMarker_append_backslash, trimLeft_append_backslash]
    rw [htext, pieceAfter, Option.elim_some, continuation_of_trimRight ht]
    generalize (withoutMarker t).trimLeft = u
    by_cases hempty : start = []
    · rw [hempty, Text.nil_glue, Text.nil_glue, broken?_append_backslash]
    rw [Text.glue_of_ne_nil hempty (by simp), ← List.cons_append, ← List.append_assoc,
      broken?_append_backslash]
    by_cases hu : Text.trimRight u = []
    · have hblank : Text.isBlankText (' ' :: u) = true := by
        rw [Text.isBlankText, List.all_cons]
        exact Text.isBlankText_of_trimRight hu
      rw [Text.trimRight_append_of_blank hblank, hstart, hu, Text.glue_nil]
    · have hspace : Text.trimRight (' ' :: u) = ' ' :: Text.trimRight u := by
        rw [Text.trimRight_cons, if_neg fun h => hu h.1]
      rw [Text.trimRight_append_of_ne_nil _ (by rw [hspace]; simp), hspace,
        Text.glue_of_ne_nil hempty hu]

/-- What a line makes behind a solid text is solid, if the line is broken. -/
theorem endsSolid_pieceAfter (hpending : ∀ start ∈ pending, start.EndsSolid)
    (h : isBroken line = true) : (pieceAfter pending line).EndsSolid :=
  endsSolid_of_broken? (broken?_textAfter hpending h)

end Steps

section Runs

variable {pending : Option Text} {lines rest : List Text} {line : Text}

/-- Broken lines with nothing behind them make one line. -/
theorem joinFrom_of_isBroken (hpending : ∀ start ∈ pending, start.EndsSolid)
    (h : ∀ line ∈ lines, isBroken line = true) (hne : lines ≠ [] ∨ pending.isSome = true) :
    joinFrom pending lines = [unitedAfter pending lines] := by
  induction lines generalizing pending with
  | nil =>
    obtain ⟨start, rfl⟩ := Option.isSome_iff_exists.mp (hne.resolve_left (by simp))
    rfl
  | cons line rest ih =>
    rw [List.forall_mem_cons] at h
    rw [joinFrom_cons, broken?_textAfter hpending h.1, unitedAfter_cons]
    refine ih (fun start hstart => ?_) h.2 (.inr rfl)
    exact Option.mem_some.mp hstart ▸ endsSolid_pieceAfter hpending h.1

/-- Broken lines up to one that is not broken make one line, unless that still ends in a
backslash. -/
theorem joinFrom_closed_append (hpending : ∀ start ∈ pending, start.EndsSolid)
    (h : ∀ line ∈ lines, isBroken line = true) (hline : isBroken line = false) (rest : List Text) :
    joinFrom pending (lines ++ [line] ++ rest) =
      match broken? (unitedAfter pending (lines ++ [line])) with
      | some start => joinFrom (some start) rest
      | none => unitedAfter pending (lines ++ [line]) :: joinLines rest := by
  induction lines generalizing pending with
  | nil =>
    have hunited : unitedAfter pending [line] = pieceAfter pending line := unitedAfter_cons _ _ _
    rw [List.nil_append, List.singleton_append, joinFrom_cons, textAfter_of_not_isBroken hline,
      hunited]
    rfl
  | cons first lines ih =>
    rw [List.forall_mem_cons] at h
    simp only [List.cons_append]
    rw [joinFrom_cons, broken?_textAfter hpending h.1, unitedAfter_cons]
    refine ih (fun start hstart => ?_) h.2
    exact Option.mem_some.mp hstart ▸ endsSolid_pieceAfter hpending h.1

end Runs

/-- The lines fall into the groups: broken lines up to one that is not broken, or up to the end. -/
inductive Grouped : List Text → List (List Text) → Prop
  | nil : Grouped [] []
  | opened {group : List Text} (hne : group ≠ [])
    (hbroken : ∀ line ∈ group, isBroken line = true) : Grouped group [group]
  | closed {lines : List Text} {line : Text} {rest : List Text} {groups : List (List Text)}
    (hbroken : ∀ line ∈ lines, isBroken line = true) (hends : isBroken line = false)
    (h : Grouped rest groups) : Grouped (lines ++ [line] ++ rest) ((lines ++ [line]) :: groups)

/-- Every line of a group but the last one is broken. -/
theorem isBroken_of_isChain {lines : List Text} {line : Text}
    (h : (lines ++ [line]).IsChain fun line _ => isBroken line) :
    ∀ line ∈ lines, isBroken line = true := by
  induction lines with
  | nil => simp
  | cons first lines ih =>
    rw [List.forall_mem_cons]
    cases lines with
    | nil => simpa using h
    | cons second lines =>
      rw [List.cons_append, List.cons_append, List.isChain_cons_cons] at h
      exact ⟨h.1, ih h.2⟩

theorem grouped_flatten {groups : List (List Text)} (hne : [] ∉ groups)
    (hbroken : ∀ group ∈ groups, group.IsChain fun line _ => isBroken line)
    (hends : groups.IsChain fun group next =>
      ∃ (h : group ≠ []) (_ : next ≠ []), isBroken (group.getLast h) = false) :
    Grouped groups.flatten groups := by
  induction groups with
  | nil => exact .nil
  | cons group rest ih =>
    rw [List.mem_cons, not_or] at hne
    rw [List.forall_mem_cons] at hbroken
    obtain ⟨lines, line, rfl⟩ : ∃ lines line, group = lines ++ [line] :=
      ⟨_, _, (List.dropLast_append_getLast (Ne.symm hne.1)).symm⟩
    have hlines := isBroken_of_isChain hbroken.1
    cases hline : isBroken line with
    | false => exact .closed hlines hline (ih hne.2 hbroken.2 hends.tail)
    | true =>
      -- no group follows one that ends in a broken line
      cases rest with
      | nil =>
        rw [List.flatten_singleton]
        exact .opened (by simp) (by simpa [or_imp, forall_and] using ⟨hlines, hline⟩)
      | cons next rest =>
        obtain ⟨⟨_, _, hfalse⟩, -⟩ := List.isChain_cons_cons.mp hends
        rw [List.getLast_append_singleton, hline] at hfalse
        cases hfalse

theorem grouped_groups (lines : List Text) : Grouped lines (groups lines) := by
  have h := grouped_flatten (List.nil_notMem_splitBy _ lines)
    (fun _ => List.isChain_of_mem_splitBy (r := fun line _ => isBroken line))
    ((List.isChain_getLast_head_splitBy _ lines).imp fun _ _ ⟨h, h', hr⟩ => ⟨h, h', hr⟩)
  rwa [List.flatten_splitBy] at h

section Groups

theorem endsSolid_of_mem_none : ∀ start ∈ (none : Option Text), start.EndsSolid := by simp

variable {lines : List Text} {gs : List (List Text)}

theorem Grouped.joinLines_eq_map_unite (h : Grouped lines gs)
    (hclean : ∀ group ∈ gs, broken? (unite group) = none) : joinLines lines = gs.map unite := by
  induction h with
  | nil => rfl
  | opened hne hbroken => exact joinFrom_of_isBroken endsSolid_of_mem_none hbroken (.inl hne)
  | @closed lines line rest gs hbroken hends _ ih =>
    rw [List.forall_mem_cons] at hclean
    rw [joinLines, joinFrom_closed_append endsSolid_of_mem_none hbroken hends, unitedAfter,
      hclean.1, ih hclean.2]
    rfl

/-- Lines make no more lines than they have groups, or one if they continue a line and there are
none. -/
theorem Grouped.length_joinFrom_le (h : Grouped lines gs) {pending : Option Text}
    (hpending : ∀ start ∈ pending, start.EndsSolid) :
    (joinFrom pending lines).length ≤ max gs.length pending.toList.length := by
  induction h generalizing pending with
  | nil => cases pending <;> simp [joinFrom]
  | opened hne hbroken =>
    rw [joinFrom_of_isBroken hpending hbroken (.inl hne)]
    simp
  | @closed lines line rest gs hbroken hends _ ih =>
    rw [joinFrom_closed_append hpending hbroken hends, List.length_cons]
    cases hagain : broken? (unitedAfter pending (lines ++ [line])) with
    | some start =>
      have hstart : ∀ text ∈ some start, text.EndsSolid := by
        simpa using endsSolid_of_broken? hagain
      have hrest := ih hstart
      simp only [Option.toList_some, List.length_singleton] at hrest
      dsimp only
      omega
    | none =>
      have hrest := ih endsSolid_of_mem_none
      simp only [Option.toList_none, List.length_nil] at hrest
      simp only [joinLines, List.length_cons]
      omega

/-- The line that a group makes ends in a backslash if the group leaves one. -/
theorem broken?_unite_eq_none {group : List Text} :
    broken? (unite group) = none ↔ ¬ LeavesBackslash group := by
  rw [broken?_eq_none, unite, Text.getLast?_spaced, LeavesBackslash]
  simp [Option.bind_eq_some_iff]

/-- What a line adds stands at the end of its text. -/
theorem continuation_suffix (line : Text) : continuation line <:+ unbroken line.trimRight := by
  cases hbroken : isBroken line with
  | false =>
    rw [continuation_of_not_isBroken hbroken,
      unbroken_of_not_broken (isBroken_eq_false_iff.mp hbroken)]
    exact (List.dropWhile_suffix _).trans (withoutMarker_suffix _)
  | true =>
    obtain ⟨t, ht⟩ := exists_of_isBroken hbroken
    obtain ⟨lead, hlead⟩ : (withoutMarker t).trimLeft <:+ t :=
      (List.dropWhile_suffix _).trans (withoutMarker_suffix _)
    rw [continuation_of_trimRight ht, ht, unbroken_append_backslash]
    by_cases hempty : Text.trimRight (withoutMarker t).trimLeft = []
    · rw [hempty]
      exact List.nil_suffix
    · exact ⟨lead, by rw [← Text.trimRight_append_of_ne_nil _ hempty, hlead]⟩

/-- A group leaves a backslash only if one of its lines has two of them at its end. -/
theorem exists_of_leavesBackslash {group : List Text} (h : LeavesBackslash group) :
    ∃ line ∈ group, (unbroken line.trimRight).getLast? = some '\\' := by
  obtain ⟨piece, hpiece, hlast⟩ := h
  have hmem : piece ∈ pieces group := List.mem_of_mem_filter (List.mem_of_getLast? hpiece)
  cases group with
  | nil => cases hmem
  | cons first rest =>
    rw [pieces, List.mem_cons, List.mem_map] at hmem
    obtain rfl | ⟨line, hline, rfl⟩ := hmem
    · exact ⟨first, List.mem_cons_self, hlast⟩
    · refine ⟨line, List.mem_cons_of_mem _ hline, ?_⟩
      obtain ⟨lead, hlead⟩ := continuation_suffix line
      have hne : continuation line ≠ [] := by
        intro hnil
        rw [hnil] at hlast
        cases hlast
      rw [← hlead, List.getLast?_append_of_ne_nil _ hne, hlast]

end Groups

section Joined

/-- Only the last of the joined lines may end in a backslash. -/
theorem not_broken_of_mem_dropLast (pending : Option Text) (lines : List Text) :
    ∀ line ∈ (joinFrom pending lines).dropLast, broken? line = none := by
  induction lines generalizing pending with
  | nil => cases pending <;> simp [joinFrom]
  | cons line rest ih =>
    rw [joinFrom_cons]
    cases hbroken : broken? (textAfter pending line) with
    | some start => exact ih (some start)
    | none =>
      cases hrest : joinFrom none rest with
      | nil => simp
      | cons next more =>
        have hmore := ih none
        rw [hrest] at hmore
        rw [List.dropLast_cons_cons, List.forall_mem_cons]
        exact ⟨hbroken, hmore⟩

/-- Lines that are not continued stay what they are. -/
theorem joinLines_append_of_not_broken {texts : List Text}
    (hsolid : ∀ text ∈ texts, text.EndsSolid) (h : ∀ text ∈ texts, broken? text = none)
    (rest : List Text) : joinLines (texts ++ rest) = texts ++ joinLines rest := by
  induction texts with
  | nil => rfl
  | cons text texts ih =>
    rw [List.forall_mem_cons] at hsolid h
    have htext : textAfter none text = text := hsolid.1
    rw [List.cons_append, joinLines, joinFrom_cons, htext, h.1]
    exact congrArg (text :: ·) (ih hsolid.2 h.2)

/-- A line that ends in a backslash does not stay what it is, even with nothing behind it. -/
theorem joinLines_singleton_ne {text start : Text} (hsolid : text.EndsSolid)
    (h : broken? text = some start) : joinLines [text] ≠ [text] := by
  have htext : textAfter none text = text := hsolid
  rw [joinLines, joinFrom_cons, htext, h]
  rintro hsame
  have hstart : start = text := List.singleton_inj.mp hsame
  obtain ⟨init, hinit, hcut⟩ := Option.map_eq_some_iff.mp h
  obtain rfl := Text.dropEnd?_eq_some.mp hinit
  obtain ⟨blank, -, htrim⟩ := Text.exists_eq_trimRight_append init
  have hlong := congrArg List.length htrim
  rw [List.length_append, hcut, hstart, List.length_append] at hlong
  simp only [List.length_singleton] at hlong
  omega

/-- Solid lines are joined to themselves exactly if none of them ends in a backslash. -/
theorem joinLines_eq_self_iff {texts : List Text} (hsolid : ∀ text ∈ texts, text.EndsSolid) :
    joinLines texts = texts ↔ ∀ text ∈ texts, broken? text = none := by
  constructor
  · intro hsame
    obtain rfl | ⟨init, last, rfl⟩ := List.eq_nil_or_concat' texts
    · simp
    have hinit : ∀ text ∈ init, broken? text = none := by
      have h := not_broken_of_mem_dropLast none (init ++ [last])
      rwa [show joinFrom none (init ++ [last]) = init ++ [last] from hsame,
        List.dropLast_concat] at h
    have hboth := List.forall_mem_append.mp hsolid
    have hlast : broken? last = none := by
      cases hbroken : broken? last with
      | none => rfl
      | some start =>
        rw [joinLines_append_of_not_broken hboth.1 hinit, List.append_cancel_left_eq] at hsame
        exact absurd hsame (joinLines_singleton_ne (hboth.2 last (by simp)) hbroken)
    exact List.forall_mem_append.mpr ⟨hinit, by simpa using hlast⟩
  · intro h
    simpa [joinLines, joinFrom] using joinLines_append_of_not_broken hsolid h []

/-- Where no line has two backslashes at its end, every group makes its line. -/
theorem joinLines_eq_map_unite {lines : List Text}
    (h : ∀ line ∈ lines, (unbroken line.trimRight).getLast? ≠ some '\\') :
    joinLines lines = (groups lines).map unite := by
  refine (grouped_groups lines).joinLines_eq_map_unite fun group hgroup => ?_
  rw [broken?_unite_eq_none]
  intro hleaves
  obtain ⟨line, hline, hlast⟩ := exists_of_leavesBackslash hleaves
  refine h line ?_ hlast
  rw [← List.flatten_splitBy (fun line _ => isBroken line) lines]
  exact List.mem_flatten_of_mem hgroup hline

/-- Lines make at most one line for each of their groups, and none of these but the last one ends in
a backslash. They are what joining makes of them exactly if the last one does not end in one either.
Each group makes the line of what it says, without a backslash at its end, exactly if none of the
groups leaves a backslash. -/
theorem joinLines_groups (lines : List Text) :
    (joinLines lines).length ≤ (groups lines).length ∧
    (∀ line ∈ (joinLines lines).dropLast, line.getLast? ≠ some '\\') ∧
    (joinLines (joinLines lines) = joinLines lines ↔
      ∀ line ∈ joinLines lines, line.getLast? ≠ some '\\') ∧
    ((joinLines lines = (groups lines).map unite ∧
        ∀ line ∈ joinLines lines, line.getLast? ≠ some '\\') ↔
      ∀ group ∈ groups lines, ¬ LeavesBackslash group) := by
  have hgrouped := grouped_groups lines
  simp only [← broken?_eq_none, ← broken?_unite_eq_none]
  refine ⟨?_, not_broken_of_mem_dropLast none lines,
    joinLines_eq_self_iff endsSolid_of_mem_joinLines, ?_, ?_⟩
  · simpa [joinLines] using hgrouped.length_joinFrom_le endsSolid_of_mem_none
  · rintro ⟨hmade, hclean⟩ group hgroup
    exact hclean _ (hmade ▸ List.mem_map_of_mem hgroup)
  · intro hclean
    have hmade := hgrouped.joinLines_eq_map_unite hclean
    refine ⟨hmade, ?_⟩
    rw [hmade, List.forall_mem_map]
    exact hclean

/-- A blank line behind two backslashes takes the line after it into their group. -/
theorem doubled_backslash_goes_on :
    ¬ ∀ lines : List Text, (joinLines lines).length = (groups lines).length ∧
      (∀ line ∈ joinLines lines, line.getLast? ≠ some '\\') ∧
      joinLines (joinLines lines) = joinLines lines := by
  intro h
  have hlength := (h ["//kun:op GET /a \\\\".toList, "//".toList,
    "//kun:param id in=query".toList]).1
  revert hlength
  decide

/-- A backslash that breaks the last line is dropped; one before it is kept. -/
example : joinLines ["a \\\\".toList] = ["a \\".toList] := by decide

end Joined

end Comment

end Routespec
