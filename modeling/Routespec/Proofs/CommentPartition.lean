import Routespec.Proofs.InsertedLines
import Routespec.Proofs.OptionGrammar

/-!
# How a comment is sorted

Every joined line of a comment is either a directive or free text. A comment is read if every line
with the mark of directives goes on with a keyword, and the first line that does not is reported
otherwise. The directives of a comment are what its marked lines say, in order. Its description is
what the other lines say, in order, without the blank lines at both ends; those in between stay.
-/

namespace Routespec

namespace Directive

/-- The line, trimmed, starts with the mark of directives. -/
def IsMarked (line : Text) : Prop := directiveMark.toList <+: line.trim

instance : DecidablePred IsMarked := fun _ => inferInstanceAs (Decidable (_ <+: _))

/-- The line, trimmed, is the mark of directives, a word, and nothing or what starts with white
space. -/
structure Parts (line word rest : Text) : Prop where
  whole : line.trim = directiveMark.toList ++ (word ++ rest)
  solid : ∀ c ∈ word, isBlank c = false
  blank : ∀ c ∈ rest.head?, isBlank c = true

/-- The word behind the mark of directives is a keyword. -/
def HasKeyword (line : Text) : Prop :=
  ∃ (keyword : Keyword) (rest : Text), Parts line keyword.word.toList rest

/-- The line, trimmed, is the directive as written: the mark, the keyword, and behind it nothing, or
white space and the arguments. -/
structure IsOn (d : Directive) (line : Text) : Prop where
  raw : d.raw.toList = line.trim
  parts : ∃ gap : Text, d.raw.toList =
      directiveMark.toList ++ (d.keyword.word.toList ++ (gap ++ d.args.toList)) ∧
    gap.isBlankText = true ∧ (gap = [] ↔ d.args = "")
  trimmed : trimmed d.args = d.args

section Lines

variable {owner : String} {line word rest : Text} {d : Directive}

theorem marked?_eq_some : marked? line = some rest ↔ line.trim = directiveMark.toList ++ rest :=
  Text.dropStart?_eq_some

theorem isMarked_iff : IsMarked line ↔ (marked? line).isSome = true := by
  rw [Option.isSome_iff_exists]
  simp only [marked?_eq_some]
  exact exists_congr fun rest => eq_comm

theorem Parts.isMarked (h : Parts line word rest) : IsMarked line := ⟨_, h.whole.symm⟩

theorem exists_parts (h : IsMarked line) : ∃ word rest, Parts line word rest := by
  obtain ⟨t, ht⟩ := h
  refine ⟨t.takeWhile (!isBlank ·), t.dropWhile (!isBlank ·), ?_, fun c hc => ?_, fun c hc => ?_⟩
  · rw [List.takeWhile_append_dropWhile, ht]
  · simpa using List.mem_takeWhile_imp hc
  · simpa using Text.head?_dropWhile _ t c hc

/-- What follows the word ends in no white space. -/
theorem Parts.endsSolid (h : Parts line word rest) : rest.EndsSolid := by
  have hline : line.trim.EndsSolid := Text.endsSolid_trimRight _
  rw [h.whole] at hline
  exact hline.of_append.of_append

/-- The arguments stand behind the first white space. -/
theorem Parts.split_eq (h : Parts line word rest) : split (word ++ rest) = (word, rest.trim) := by
  have hblank := h.blank
  unfold split
  cases rest with
  | nil =>
    rw [List.append_nil, Text.cutAt?_eq_none h.solid]
    rfl
  | cons c rest => rw [Text.cutAt?_append_cons h.solid (hblank c rfl),
      Text.trim_cons_of_blank (hblank c rfl)]

theorem ofLine_of_not_isMarked (h : ¬ IsMarked line) : ofLine owner line = .ok none := by
  have hnone : marked? line = none := by simpa [isMarked_iff] using h
  rw [ofLine, hnone]

/-- What becomes of a marked line depends on its first word. -/
theorem Parts.ofLine_eq (h : Parts line word rest) : ofLine owner line =
    (Keyword.ofWord? (String.ofList word)).elim
      (.error ⟨owner, String.ofList line.trim,
        (Cause.unknownDirective directiveMark (String.ofList word)).fault⟩)
      fun keyword => .ok (some ⟨keyword, String.ofList rest.trim, String.ofList line.trim⟩) := by
  rw [ofLine, marked?_eq_some.mpr h.whole]
  dsimp only
  rw [h.split_eq]
  cases Keyword.ofWord? (String.ofList word) <;> rfl

theorem Parts.ofLine_of_keyword {keyword : Keyword} (h : Parts line keyword.word.toList rest) :
    ofLine owner line =
      .ok (some ⟨keyword, String.ofList rest.trim, String.ofList line.trim⟩) := by
  rw [h.ofLine_eq, String.ofList_toList, Keyword.ofWord?_word, Option.elim_some]

theorem Parts.ofLine_of_not_hasKeyword (h : Parts line word rest) (hno : ¬ HasKeyword line) :
    ofLine owner line = .error ⟨owner, String.ofList line.trim,
      (Cause.unknownDirective directiveMark (String.ofList word)).fault⟩ := by
  have hnone : Keyword.ofWord? (String.ofList word) = none := by
    refine Option.eq_none_iff_forall_ne_some.mpr fun keyword hkeyword => hno ⟨keyword, rest, ?_⟩
    have hword : keyword.word = String.ofList word := by simpa using List.find?_some hkeyword
    rwa [hword, String.toList_ofList]
  rw [h.ofLine_eq, hnone, Option.elim_none]

/-- White space stands between the word and the arguments, if there are any. -/
theorem Parts.exists_gap (h : Parts line word rest) :
    ∃ gap, rest = gap ++ rest.trim ∧ Text.isBlankText gap = true ∧ (gap = [] ↔ rest.trim = []) := by
  have htrim : rest.trim = rest.trimLeft := by
    rw [Text.trim, Text.trimRight_trimLeft, h.endsSolid]
  have hrest : rest.takeWhile isBlank ++ rest.trim = rest := by
    rw [htrim]
    exact List.takeWhile_append_dropWhile
  refine ⟨rest.takeWhile isBlank, hrest.symm, List.all_takeWhile, fun hgap => ?_, fun hargs => ?_⟩
  · cases rest with
    | nil => rfl
    | cons c rest =>
      rw [List.takeWhile_cons_of_pos (h.blank c rfl)] at hgap
      cases hgap
  · rw [hargs, List.append_nil] at hrest
    have hblank : rest.isBlankText = true := hrest ▸ List.all_takeWhile
    have hnone : rest.trimRight = [] := Text.trimRight_append_of_blank hblank []
    rw [hrest, ← h.endsSolid, hnone]

theorem Parts.isOn {keyword : Keyword} (h : Parts line keyword.word.toList rest) :
    IsOn ⟨keyword, String.ofList rest.trim, String.ofList line.trim⟩ line := by
  obtain ⟨gap, hrest, hgap, hnone⟩ := h.exists_gap
  refine ⟨String.toList_ofList, ⟨gap, ?_, hgap, ?_⟩, ?_⟩
  · simp only [String.toList_ofList]
    rw [← hrest, h.whole]
  · rw [hnone]
    simp
  · simp [Routespec.trimmed, Text.trim_trim]

theorem IsOn.exists_parts (h : IsOn d line) :
    ∃ rest, Parts line d.keyword.word.toList rest ∧ rest.trim = d.args.toList := by
  obtain ⟨gap, hparts, hgap, hnone⟩ := h.parts
  refine ⟨gap ++ d.args.toList, ⟨?_, Keyword.word_solid _, fun c hc => ?_⟩, ?_⟩
  · rw [← h.raw, hparts]
  · cases gap with
    | nil => simp [hnone.mp rfl] at hc
    | cons e gap =>
      obtain rfl : e = c := by simpa using hc
      exact List.all_eq_true.mp hgap e List.mem_cons_self
  · rw [Text.trim_of_blank_append hgap, ← toList_trimmed, h.trimmed]

/-- A line is read as the directive that it spells. -/
theorem ofLine_eq_some : ofLine owner line = .ok (some d) ↔ d.IsOn line := by
  constructor
  · intro h
    by_cases hmarked : IsMarked line
    · by_cases hkeyword : HasKeyword line
      · obtain ⟨keyword, rest, hparts⟩ := hkeyword
        rw [hparts.ofLine_of_keyword] at h
        obtain rfl := Option.some.inj (Except.ok.inj h)
        exact hparts.isOn
      · obtain ⟨word, rest, hparts⟩ := exists_parts hmarked
        rw [hparts.ofLine_of_not_hasKeyword hkeyword] at h
        cases h
    · rw [ofLine_of_not_isMarked hmarked] at h
      cases h
  · intro h
    obtain ⟨rest, hparts, hargs⟩ := h.exists_parts
    rw [hparts.ofLine_of_keyword, hargs, ← h.raw, String.ofList_toList, String.ofList_toList]

theorem IsOn.isMarked (h : IsOn d line) : IsMarked line := by
  obtain ⟨rest, hparts, -⟩ := h.exists_parts
  exact hparts.isMarked

/-- A line is read unless a word that is no keyword follows the mark of directives. -/
theorem exists_ofLine_eq_ok :
    (∃ d?, ofLine owner line = .ok d?) ↔ (IsMarked line → HasKeyword line) := by
  constructor
  · rintro ⟨d?, hd⟩ hmarked
    by_contra hno
    obtain ⟨word, rest, hparts⟩ := exists_parts hmarked
    rw [hparts.ofLine_of_not_hasKeyword hno] at hd
    cases hd
  · intro h
    by_cases hmarked : IsMarked line
    · obtain ⟨keyword, rest, hparts⟩ := h hmarked
      exact ⟨_, hparts.ofLine_of_keyword⟩
    · exact ⟨none, ofLine_of_not_isMarked hmarked⟩

theorem ofLine_eq_none : ofLine owner line = .ok none ↔ ¬ IsMarked line := by
  refine ⟨fun h hmarked => ?_, ofLine_of_not_isMarked⟩
  obtain ⟨keyword, rest, hparts⟩ := exists_ofLine_eq_ok.mp ⟨_, h⟩ hmarked
  rw [hparts.ofLine_of_keyword] at h
  cases h

theorem ofLine_eq_error {e : Diagnostic} : ofLine owner line = .error e ↔ ∃ word rest,
    Parts line word rest ∧ ¬ HasKeyword line ∧ e = ⟨owner, String.ofList line.trim,
      (Cause.unknownDirective directiveMark (String.ofList word)).fault⟩ := by
  constructor
  · intro h
    have hno : ¬ (IsMarked line → HasKeyword line) := by
      rw [← @exists_ofLine_eq_ok owner line, h]
      simp
    obtain ⟨hmarked, hno⟩ := Classical.not_imp.mp hno
    obtain ⟨word, rest, hparts⟩ := exists_parts hmarked
    rw [hparts.ofLine_of_not_hasKeyword hno] at h
    exact ⟨word, rest, hparts, hno, (Except.error.inj h).symm⟩
  · rintro ⟨word, rest, hparts, hno, rfl⟩
    exact hparts.ofLine_of_not_hasKeyword hno

end Lines

end Directive

namespace Comment

/-- The text is what a line says, left-trimmed, without a comment marker and one space behind it. -/
inductive SaysFree : Text → Text → Prop
  | spaced {line text : Text} (h : line.trimLeft = '/' :: '/' :: ' ' :: text) : SaysFree line text
  | marked {line text : Text} (h : line.trimLeft = '/' :: '/' :: text)
    (hspace : text.head? ≠ some ' ') : SaysFree line text
  | bare {line text : Text} (h : line.trimLeft = text) (hmarker : ¬ ['/', '/'] <+: text) :
    SaysFree line text

/-- The lines `kept` are the others without the longest runs of blank ones at both ends. -/
structure IsCore (lines kept : List Text) : Prop where
  around : ∃ lead trail, lines = lead ++ kept ++ trail ∧
    (∀ line ∈ lead, line.isBlankText = true) ∧ ∀ line ∈ trail, line.isBlankText = true
  first : ∀ line ∈ kept.head?, line.isBlankText = false
  last : ∀ line ∈ kept.getLast?, line.isBlankText = false

section Free

variable {line text : Text} {lines kept : List Text}

theorem dropStart?_eq_none {start t : Text} : Text.dropStart? start t = none ↔ ¬ start <+: t := by
  rw [Option.eq_none_iff_forall_ne_some]
  simp only [ne_eq, Text.dropStart?_eq_some]
  exact not_exists.symm.trans (not_congr (exists_congr fun rest => eq_comm))

theorem freeText_of_marker {rest : Text} (h : line.trimLeft = '/' :: '/' :: rest) :
    freeText line = (Text.dropStart? [' '] rest).getD rest := by
  unfold freeText withoutMarker
  rw [h]
  rfl

/-- A line without a comment marker does not start with a space once it is left-trimmed. -/
theorem freeText_of_not_marker (h : ¬ ['/', '/'] <+: line.trimLeft) :
    freeText line = line.trimLeft := by
  have hmarker : withoutMarker line = line.trimLeft := by
    unfold withoutMarker
    dsimp only
    rw [dropStart?_eq_none.mpr h, Option.getD_none]
  have hspace : ¬ [' '] <+: line.trimLeft := by
    rintro ⟨rest, hrest⟩
    have hsolid := Text.head?_dropWhile isBlank line ' '
    rw [← Text.trimLeft, ← hrest] at hsolid
    exact absurd (hsolid rfl) (by decide)
  unfold freeText
  dsimp only
  rw [hmarker, dropStart?_eq_none.mpr hspace, Option.getD_none]

theorem saysFree_iff : SaysFree line text ↔ text = freeText line := by
  constructor
  · intro h
    cases h with
    | spaced h =>
      have hspace : Text.dropStart? [' '] (' ' :: text) = some text :=
        Text.dropStart?_append [' '] text
      rw [freeText_of_marker h, hspace, Option.getD_some]
    | marked h hspace =>
      have hnone : Text.dropStart? [' '] text = none := by
        rw [dropStart?_eq_none]
        rintro ⟨rest, rfl⟩
        exact hspace rfl
      rw [freeText_of_marker h, hnone, Option.getD_none]
    | bare h hmarker =>
      subst h
      rw [freeText_of_not_marker hmarker]
  · rintro rfl
    by_cases hmarker : ['/', '/'] <+: line.trimLeft
    · obtain ⟨rest, hrest⟩ := hmarker
      have hline : line.trimLeft = '/' :: '/' :: rest := hrest.symm
      rw [freeText_of_marker hline]
      cases hspace : Text.dropStart? [' '] rest with
      | some t => exact .spaced (Text.eq_append_of_dropStart? hspace ▸ hline)
      | none =>
        refine .marked hline fun hhead => dropStart?_eq_none.mp hspace ?_
        obtain ⟨t, ht⟩ := List.head?_eq_some_iff.mp hhead
        exact ⟨t, ht.symm⟩
    · rw [freeText_of_not_marker hmarker]
      exact .bare rfl hmarker

theorem isCore_withoutBlankEnds (lines : List Text) : IsCore lines (withoutBlankEnds lines) := by
  let kept := ((lines.dropWhile Text.isBlankText).reverse.dropWhile Text.isBlankText).reverse
  let trail := ((lines.dropWhile Text.isBlankText).reverse.takeWhile Text.isBlankText).reverse
  have hmiddle : lines.dropWhile Text.isBlankText = kept ++ trail := by
    rw [← List.reverse_append, List.takeWhile_append_dropWhile, List.reverse_reverse]
  refine ⟨⟨lines.takeWhile Text.isBlankText, trail, ?_, fun line hline => ?_, fun line hline => ?_⟩,
    fun line hline => ?_, fun line hline => ?_⟩
  · change lines = lines.takeWhile Text.isBlankText ++ kept ++ trail
    rw [List.append_assoc, ← hmiddle, List.takeWhile_append_dropWhile]
  · exact List.mem_takeWhile_imp hline
  · exact List.mem_takeWhile_imp (List.mem_reverse.mp hline)
  · have hhead : line ∈ (lines.dropWhile Text.isBlankText).head? := by
      rw [hmiddle]
      exact List.mem_head?_append_of_mem_head? hline
    exact Text.head?_dropWhile _ _ line hhead
  · have hlast : line ∈ kept.reverse.head? := by rwa [List.head?_reverse]
    rw [List.reverse_reverse] at hlast
    exact Text.head?_dropWhile _ _ line hlast

theorem isCore_iff : IsCore lines kept ↔ kept = withoutBlankEnds lines := by
  refine ⟨?_, fun h => h ▸ isCore_withoutBlankEnds lines⟩
  rintro ⟨⟨lead, trail, rfl, hlead, htrail⟩, hfirst, hlast⟩
  unfold withoutBlankEnds
  by_cases hempty : kept = []
  · have hblank : (lead ++ kept ++ trail).dropWhile Text.isBlankText = [] := by
      rw [hempty, List.append_nil, List.dropWhile_eq_nil_iff]
      exact List.forall_mem_append.mpr ⟨hlead, htrail⟩
    rw [hblank, hempty]
    rfl
  · have hleft : (lead ++ (kept ++ trail)).dropWhile Text.isBlankText = kept ++ trail := by
      refine Text.dropWhile_exact hlead ?_
      rwa [List.head?_append_of_ne_nil _ hempty]
    have hright : (trail.reverse ++ kept.reverse).dropWhile Text.isBlankText = kept.reverse := by
      refine Text.dropWhile_exact (fun line hline => htrail line (List.mem_reverse.mp hline)) ?_
      rwa [List.head?_reverse]
    rw [List.append_assoc, hleft, List.reverse_append, hright, List.reverse_reverse]

end Free

end Comment

namespace CommentBlock

/-- The comment is its joined lines, sorted: a directive for each marked line, in order, and the
free text of the others, in order, without the blank lines at both ends. -/
structure Sorts (block : CommentBlock) (joined : List Text) : Prop where
  directives : List.Forall₂ Directive.IsOn block.directives (joined.filter Directive.IsMarked)
  description : ∃ texts kept,
    List.Forall₂ Comment.SaysFree (joined.filter (¬ Directive.IsMarked ·)) texts ∧
    Comment.IsCore texts kept ∧ block.description.toList = ['\n'].intercalate kept

section Reading

variable {owner : String} {lines : List String} {joined : List Text} {block : CommentBlock}

/-- The directives of the lines that have one are those of the marked lines. -/
theorem exists_found_iff {ds : List Directive} :
    (∃ found, List.Forall₂ (fun line d? => Directive.ofLine owner line = .ok d?) joined found ∧
      found.filterMap id = ds) ↔
      List.Forall₂ Directive.IsOn ds (joined.filter Directive.IsMarked) := by
  constructor
  · rintro ⟨found, hfound, rfl⟩
    induction hfound with
    | nil => exact .nil
    | @cons line d? _ _ hd _ ih =>
      cases d? with
      | none =>
        have hfree := Directive.ofLine_eq_none.mp hd
        rwa [List.filter_cons_of_neg (by simpa using hfree), List.filterMap_cons_none rfl]
      | some d =>
        have hon := Directive.ofLine_eq_some.mp hd
        rw [List.filter_cons_of_pos (by simpa using hon.isMarked),
          List.filterMap_cons_some (id_eq (some d))]
        exact .cons hon ih
  · intro h
    induction joined generalizing ds with
    | nil =>
      obtain rfl := List.forall₂_nil_right_iff.mp h
      exact ⟨[], .nil, rfl⟩
    | cons line joined ih =>
      by_cases hmarked : Directive.IsMarked line
      · rw [List.filter_cons_of_pos (by simpa using hmarked)] at h
        obtain ⟨d, rest, hon, hrest, rfl⟩ := List.forall₂_cons_right_iff.mp h
        obtain ⟨found, hfound, rfl⟩ := ih hrest
        exact ⟨some d :: found, .cons (Directive.ofLine_eq_some.mpr hon) hfound, rfl⟩
      · rw [List.filter_cons_of_neg (by simpa using hmarked)] at h
        obtain ⟨found, hfound, rfl⟩ := ih h
        exact ⟨none :: found, .cons (Directive.ofLine_eq_none.mpr hmarked) hfound, rfl⟩

/-- The description holds the free text of the lines without the mark of directives. -/
theorem toList_eq_description_iff {description : String} :
    description.toList = Comment.description joined ↔ ∃ texts kept,
      List.Forall₂ Comment.SaysFree (joined.filter (¬ Directive.IsMarked ·)) texts ∧
      Comment.IsCore texts kept ∧ description.toList = ['\n'].intercalate kept := by
  have hfree : joined.filter (fun line => (Directive.marked? line).isNone) =
      joined.filter (¬ Directive.IsMarked ·) := by
    refine List.filter_congr fun line _ => ?_
    rw [Bool.eq_iff_iff]
    simp [Directive.isMarked_iff]
  have htexts (xs texts : List Text) :
      List.Forall₂ Comment.SaysFree xs texts ↔ texts = xs.map Comment.freeText := by
    have hsays : Comment.SaysFree = fun line text => Comment.freeText line = text :=
      funext₂ fun _ _ => propext (Comment.saysFree_iff.trans eq_comm)
    calc List.Forall₂ Comment.SaysFree xs texts
        ↔ List.Forall₂ (· = ·) (xs.map Comment.freeText) texts := by
          rw [List.forall₂_map_left_iff, hsays]
      _ ↔ texts = xs.map Comment.freeText := by rw [List.forall₂_eq_eq_eq, eq_comm]
  unfold Comment.description
  dsimp only
  rw [hfree]
  simp only [htexts, Comment.isCore_iff, exists_eq_left, ↓existsAndEq, true_and]

theorem read_eq_ok_iff_sorts (hjoined : Comment.joinLines (lines.map (·.toList)) = joined) :
    read owner lines = .ok block ↔ block.Sorts joined := by
  rw [read_eq_ok_of_joined hjoined]
  constructor
  · rintro ⟨found, hfound, rfl⟩
    refine ⟨exists_found_iff.mp ⟨found, hfound, rfl⟩, toList_eq_description_iff.mp ?_⟩
    exact String.toList_ofList
  · rintro ⟨hdirectives, hdescription⟩
    obtain ⟨found, hfound, hds⟩ := exists_found_iff.mpr hdirectives
    refine ⟨found, hfound, ?_⟩
    rw [hds, ← toList_eq_description_iff.mpr hdescription, String.ofList_toList]

end Reading

/-- A comment is read exactly if every joined line with the mark of directives goes on with a
keyword, and then as its joined lines are sorted. Otherwise the first line that does not is
reported, with the word that stands there. -/
theorem read_outcome (owner : String) (lines : List String) :
    ((∃ block, read owner lines = .ok block) ↔
      ∀ line ∈ Comment.joinLines (lines.map (·.toList)),
        Directive.IsMarked line → Directive.HasKeyword line) ∧
    (∀ block, read owner lines = .ok block ↔
      block.Sorts (Comment.joinLines (lines.map (·.toList)))) ∧
    ∀ e, read owner lines = .error e ↔ ∃ before line after word rest,
      Comment.joinLines (lines.map (·.toList)) = before ++ line :: after ∧
      (∀ line ∈ before, Directive.IsMarked line → Directive.HasKeyword line) ∧
      Directive.Parts line word rest ∧ ¬ Directive.HasKeyword line ∧
      e = ⟨owner, String.ofList line.trim,
        (Cause.unknownDirective directiveMark (String.ofList word)).fault⟩ := by
  refine ⟨⟨?_, fun h => ?_⟩, fun block => read_eq_ok_iff_sorts rfl, fun e => ?_⟩
  · rintro ⟨block, h⟩ line hline
    obtain ⟨found, hfound, -⟩ := (read_eq_ok_of_joined rfl).mp h
    obtain ⟨d?, -, hd⟩ := forall₂_mem_left hfound hline
    exact Directive.exists_ofLine_eq_ok.mp ⟨d?, hd⟩
  · obtain ⟨found, hfound⟩ := exists_mapM_eq_ok fun line hline =>
      Directive.exists_ofLine_eq_ok.mpr (h line hline)
    exact ⟨_, (read_eq_ok_of_joined rfl).mpr ⟨found, mapM_eq_ok.mp hfound, rfl⟩⟩
  · have hread : read owner lines = .error e ↔
        (Comment.joinLines (lines.map (·.toList))).mapM (Directive.ofLine owner) = .error e := by
      unfold read
      rw [bind_eq_error]
      refine or_iff_left ?_
      rintro ⟨_, -, h⟩
      cases h
    rw [hread, mapM_eq_error]
    simp only [Directive.exists_ofLine_eq_ok, Directive.ofLine_eq_error, exists_and_left]

/-- Blank lines stay between lines of free text, and only there. -/
example : (read "Note" ["//", "// First.", "//", "//kun:op GET /notes", "//  Second.", "// "]).map
    (fun block => (block.directives.map (·.args), block.description)) =
      .ok (["GET /notes"], "First.\n\n Second.") := by decide +kernel

end CommentBlock

end Routespec
