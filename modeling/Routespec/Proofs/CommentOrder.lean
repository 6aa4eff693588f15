import Routespec.Comment.Block
import Routespec.Proofs.Reordering
import Routespec.Proofs.Trimming

/-!
# Comments with their operations reordered

Where no line of a comment is continued, every line is read by itself. Lines of `op` directives may
then change places with each other and with any other line: the free text stays as it is, and so
do all other directives.
-/

namespace Routespec

namespace Comment

/-- The description that lines make as they are, none of them continued. -/
def describe (lines : List String) : String :=
  String.ofList (description (lines.map fun line => Text.trimRight line.toList))

/-- No line is continued by the one after it. -/
def Unbroken (lines : List String) : Prop :=
  ∀ line ∈ lines, broken? (Text.trimRight line.toList) = none

theorem joinLines_of_unbroken {lines : List String} (h : Unbroken lines) :
    joinLines (lines.map (·.toList)) = lines.map fun line => Text.trimRight line.toList := by
  unfold joinLines
  induction lines with
  | nil => rfl
  | cons line rest ih =>
    rw [Unbroken, List.forall_mem_cons] at h
    rw [List.map_cons, joinFrom, h.1]
    simpa using ih h.2

end Comment

namespace Directive

variable {owner : String} {line : Text} {d : Directive}

/-- The line is an `op` directive. -/
def isOperation (line : Text) : Bool :=
  match ofLine "" line with
  | .ok (some d) => d.keyword = .op
  | _ => false

/-- Whoever reads a directive, it is the same. -/
theorem ofLine_owner {d? : Option Directive} (h : ofLine owner line = .ok d?) (other : String) :
    ofLine other line = .ok d? := by
  unfold ofLine at h ⊢
  cases hmark : marked? line with
  | none => simpa [hmark] using h
  | some rest =>
    cases hword : Keyword.ofWord? (String.ofList (split rest).1) with
    | none => simp [hmark, hword] at h
    | some keyword => simpa [hmark, hword] using h

/-- A directive keeps the line that it is read from. -/
theorem marked_of_ofLine (h : ofLine owner line = .ok (some d)) :
    marked? line ≠ none ∧ d.raw = String.ofList line.trim := by
  unfold ofLine at h
  split at h
  · cases h
  · next rest hmark =>
    dsimp only at h
    split at h
    · obtain rfl := Option.some.inj (Except.ok.inj h)
      exact ⟨by simp [hmark], rfl⟩
    · cases h

/-- The kind of a line is the keyword of its directive. -/
theorem isOperation_of_ofLine {d? : Option Directive} (h : ofLine owner line = .ok d?) :
    isOperation line = d?.any (·.keyword = .op) := by
  unfold isOperation
  rw [ofLine_owner h ""]
  cases d? <;> rfl

theorem marked?_trimRight (line : Text) : marked? line.trimRight = marked? line := by
  unfold marked?
  rw [Text.trim_trimRight]

theorem ofLine_trimRight (owner : String) (line : Text) :
    ofLine owner line.trimRight = ofLine owner line := by
  unfold ofLine
  rw [marked?_trimRight, Text.trim_trimRight]

theorem isOperation_trimRight (line : Text) : isOperation line.trimRight = isOperation line := by
  unfold isOperation
  rw [ofLine_trimRight]

theorem isOperation_of_unmarked (h : (marked? line).isNone = true) : isOperation line = false := by
  unfold isOperation ofLine
  rw [Option.isNone_iff_eq_none.mp h]

/-- Directives of any other keyword stay in order. -/
theorem filter_keyword_reordered {ds ds' : List Directive}
    (h : Reordered (·.keyword = .op) ds ds') {keyword : Keyword} (hne : keyword ≠ .op) :
    ds.filter (·.keyword = keyword) = ds'.filter (·.keyword = keyword) := by
  refine h.filter_eq fun d hd => ?_
  have hkeyword : d.keyword = keyword := by simpa using hd
  simp [hkeyword, hne]

end Directive

/-- The lines of a comment that are `op` directives. -/
def Comment.operationLines (lines : List String) : List String :=
  lines.filter fun line => Directive.isOperation line.toList

/-- The operations of a comment are in another order, and may be elsewhere between its other
lines, which are in order. -/
def OperationsReordered (lines lines' : List String) : Prop :=
  Reordered (fun line => Directive.isOperation line.toList) lines lines'

theorem OperationsReordered.unbroken {lines lines' : List String}
    (h : OperationsReordered lines lines') (hunbroken : Comment.Unbroken lines) :
    Comment.Unbroken lines' :=
  fun line hline => hunbroken line (h.perm.mem_iff.mpr hline)

namespace CommentBlock

variable {owner : String} {lines lines' : List String} {block : CommentBlock}

/-- Without continued lines, the directives of a comment are those of its lines. -/
theorem read_eq_ok (hunbroken : Comment.Unbroken lines) :
    read owner lines = .ok block ↔ ∃ found,
      lines.mapM (fun line => Directive.ofLine owner line.toList) = .ok found ∧
      block = ⟨found.filterMap id, Comment.describe lines⟩ := by
  have hlines : (lines.map fun line => Text.trimRight line.toList).mapM (Directive.ofLine owner) =
      lines.mapM fun line => Directive.ofLine owner line.toList := by
    rw [List.mapM_map]
    exact congrArg (fun f => lines.mapM f)
      (funext fun line => Directive.ofLine_trimRight owner line.toList)
  unfold read
  rw [Comment.joinLines_of_unbroken hunbroken, bind_eq_ok, hlines]
  exact exists_congr fun found => and_congr_right fun _ => pure_eq_ok.trans eq_comm

/-- A comment with its operations reordered has the same text, and its directives are reordered
in the same way. -/
theorem read_reordered (hlines : OperationsReordered lines lines')
    (hunbroken : Comment.Unbroken lines) (h : read owner lines = .ok block) :
    ∃ block', read owner lines' = .ok block' ∧ block'.description = block.description ∧
      Reordered (·.keyword = .op) block.directives block'.directives := by
  obtain ⟨found, hfound, rfl⟩ := (read_eq_ok hunbroken).mp h
  obtain ⟨found', hfound', hreordered⟩ := hlines.mapM
    (q := fun d? : Option Directive => d?.any (·.keyword = .op))
    (fun line d? hd => (Directive.isOperation_of_ofLine hd).symm) hfound
  refine ⟨_, (read_eq_ok (hlines.unbroken hunbroken)).mpr ⟨found', hfound', rfl⟩, ?_, ?_⟩
  · -- free text is read off lines that stay in order
    have hunmarked (line : String)
        (hline : (Directive.marked? (Text.trimRight line.toList)).isNone = true) :
        Directive.isOperation line.toList = false := by
      rw [← Directive.isOperation_trimRight]
      exact Directive.isOperation_of_unmarked hline
    have hfree := hlines.filter_eq hunmarked
    unfold Comment.describe Comment.description
    rw [List.filter_map, List.filter_map]
    exact congrArg (fun free : List String => String.ofList (['\n'].intercalate
      (Comment.withoutBlankEnds ((free.map _).map Comment.freeText)))) hfree.symm
  · refine hreordered.filterMap fun d? d hd => ?_
    obtain rfl : d? = some d := hd
    rfl

/-- The operations of a comment are the directives on its `op` lines. -/
theorem operations_of_read (hunbroken : Comment.Unbroken lines) (h : read owner lines = .ok block) :
    List.Forall₂ (fun line d => Directive.ofLine owner line.toList = .ok (some d))
      (Comment.operationLines lines) (block.directives.filter (·.keyword = .op)) := by
  obtain ⟨found, hfound, rfl⟩ := (read_eq_ok hunbroken).mp h
  rw [mapM_eq_ok] at hfound
  unfold Comment.operationLines
  clear hunbroken h
  induction hfound with
  | nil => exact .nil
  | @cons line d? _ _ hd _ ih =>
    have hkind := Directive.isOperation_of_ofLine hd
    cases d? with
    | none => simpa [hkind] using ih
    | some d =>
      by_cases hop : d.keyword = .op
      · simpa [hkind, hop] using ⟨hd, ih⟩
      · simpa [hkind, hop] using ih

theorem operationLines_eq_nil (hunbroken : Comment.Unbroken lines)
    (h : read owner lines = .ok block) (hnone : block.hasHttp = false) :
    Comment.operationLines lines = [] := by
  have hlines := operations_of_read hunbroken h
  have hnoOp : block.directives.filter (·.keyword = .op) = [] := of_eq_nil .op rfl hnone
  rwa [hnoOp, List.forall₂_nil_right_iff] at hlines

theorem hasHttp_reordered {block' : CommentBlock}
    (h : Reordered (·.keyword = .op) block.directives block'.directives) :
    block'.hasHttp = block.hasHttp := by
  unfold hasHttp
  rw [Bool.eq_iff_iff, List.any_eq_true, List.any_eq_true]
  exact exists_congr fun d => and_congr_left fun _ => h.perm.mem_iff.symm

end CommentBlock

end Routespec
