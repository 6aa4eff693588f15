import Routespec.Comment.Continuation
import Routespec.Directive

/-!
# Comment blocks

The comment of a method or interface, read as its directives and its free text. Each line of the
comment, once continued lines are joined, is one or the other.
-/

namespace Routespec

/-- A comment that has been read. -/
structure CommentBlock where
  /-- The directives, in the order of their lines. -/
  directives : List Directive
  /-- The free text, its lines joined by line feeds. -/
  description : String
  deriving DecidableEq, Inhabited

namespace Comment

/-- The free text on a line: without the comment marker and one space after it. -/
def freeText (line : Text) : Text :=
  let t := withoutMarker line
  (Text.dropStart? [' '] t).getD t

/-- The lines without the blank ones at the beginning and at the end. -/
def withoutBlankEnds (lines : List Text) : List Text :=
  ((lines.dropWhile Text.isBlankText).reverse.dropWhile Text.isBlankText).reverse

/-- The free text of the lines that are no directives. -/
def description (lines : List Text) : Text :=
  let free := lines.filter fun line => (Directive.marked? line).isNone
  ['\n'].intercalate (withoutBlankEnds (free.map freeText))

end Comment

namespace CommentBlock

/-- Read the comment of `owner`. It stops at the first directive without a known keyword. -/
def read (owner : String) (lines : List String) : Diagnosed CommentBlock := do
  let joined := Comment.joinLines (lines.map (·.toList))
  let directives ← joined.mapM (Directive.ofLine owner)
  return ⟨directives.filterMap id, String.ofList (Comment.description joined)⟩

/-- The directives with the given keyword. -/
def of (block : CommentBlock) (keyword : Keyword) : List Directive :=
  block.directives.filter (·.keyword = keyword)

/-- Some directive is about HTTP. -/
def hasHttp (block : CommentBlock) : Bool := block.directives.any (·.keyword.isHttp)

/-- Without HTTP directives there are none of any kind about HTTP. -/
theorem of_eq_nil {block : CommentBlock} (keyword : Keyword) (hhttp : keyword.isHttp = true)
    (h : block.hasHttp = false) : block.of keyword = [] := by
  refine List.filter_eq_nil_iff.mpr fun d hd hsame => ?_
  have hkeyword : d.keyword = keyword := by simpa using hsame
  have hother := List.any_eq_false.mp h d hd
  rw [hkeyword, hhttp] at hother
  exact hother rfl

end CommentBlock

end Routespec
