import Mathlib.Logic.Relation
import Routespec.Interface.Resolution
import Routespec.Proofs.AliasExpansion
import Routespec.Proofs.ContinuedLines

/-!
# Where lines are broken

A line may be broken at any space: a backslash at the end of its first part, and a comment marker
before the rest, with or without white space behind it. Broken lines are joined to what they were,
also where the line continues another one, holds a comment marker only before the break, or is
broken again. Neither what is read of a comment nor what a method or an interface resolves to
depends on where the lines are broken.
-/

namespace Routespec

namespace Comment

/-- The second comment is the first one with one line broken at a space. -/
inductive BreaksLine : List String → List String → Prop
  | line (before : List String) (start gap rest : String) (after : List String)
    (hstart : start ≠ "") (hsolid : Text.EndsSolid start.toList)
    (hgap : Text.isBlankText gap.toList = true) (hrest : rest ≠ "")
    (htrimmed : trimmed rest = rest) :
    BreaksLine (before ++ [start ++ " " ++ rest] ++ after)
      (before ++ [start ++ " \\", "//" ++ gap ++ rest] ++ after)

/-- Both comments are the same but for where their lines are broken. -/
def SameButBreaks : List String → List String → Prop := Relation.EqvGen BreaksLine

section Break

variable {pending : Option Text} {line t : Text}

theorem trimLeft_ne_nil (hne : line ≠ []) (hsolid : line.EndsSolid) : line.trimLeft ≠ [] := by
  intro hnil
  have hblank : Text.isBlankText line = true :=
    List.all_eq_true.mpr (List.dropWhile_eq_nil_iff.mp hnil)
  have hnone : Text.trimRight line = [] := Text.trimRight_append_of_blank hblank []
  exact hne (hsolid.symm.trans hnone)

/-- What stands before a space is joined to the line before it, and then to what follows. -/
theorem textAfter_append_space (hne : line ≠ []) (hsolid : line.EndsSolid) (ht : t ≠ [])
    (hleft : t.trimLeft = t) (hright : t.EndsSolid) :
    textAfter pending (line ++ ' ' :: t) = Text.glue (textAfter pending line) t := by
  have hwhole : (line ++ ' ' :: t).EndsSolid := by
    have h := hright.append ht (line ++ [' '])
    rwa [List.append_assoc] at h
  have htrim (u : Text) (hu : u.trimLeft ≠ []) :
      Text.trimLeft (u ++ ' ' :: t) = u.trimLeft ++ ' ' :: t := by
    unfold Text.trimLeft at hu ⊢
    rw [List.dropWhile_append, if_neg (by simpa using hu)]
  cases pending with
  | none =>
    have hline : textAfter none line = line := hsolid
    have hboth : textAfter none (line ++ ' ' :: t) = line ++ ' ' :: t := hwhole
    rw [hline, hboth, Text.glue_of_ne_nil hne ht]
  | some start =>
    have hresume (u : Text) (hu : u.EndsSolid) :
        textAfter (some start) u = Text.glue start (withoutMarker u).trimLeft := by
      rw [textAfter, Option.elim_some, hu]
      rfl
    have hmarker : withoutMarker (line ++ ' ' :: t) = withoutMarker line ++ ' ' :: t :=
      withoutMarker_append (by simp) (htrim line (trimLeft_ne_nil hne hsolid))
    have hbody : (withoutMarker line ++ ' ' :: t).trimLeft =
        Text.glue (withoutMarker line).trimLeft t := by
      have hends : (withoutMarker line).EndsSolid := hsolid.of_suffix (withoutMarker_suffix line)
      by_cases hempty : withoutMarker line = []
      · -- the line before the break is a comment marker
        have hspace : Text.trimLeft (' ' :: t) = t.trimLeft := List.dropWhile_cons_of_pos rfl
        rw [hempty, List.nil_append, hspace, hleft]
        exact (Text.nil_glue t).symm
      · have hsome := trimLeft_ne_nil hempty hends
        rw [htrim _ hsome, Text.glue_of_ne_nil hsome ht]
    rw [hresume _ hwhole, hresume _ hsolid, hmarker, hbody, Text.glue_assoc]

theorem broken?_glue_backslash (ht : t.EndsSolid) : broken? (Text.glue t ['\\']) = some t := by
  by_cases hempty : t = []
  · rw [hempty, Text.nil_glue]
    rfl
  · have hspace : Text.trimRight (t ++ [' ']) = t.trimRight :=
      Text.trimRight_append_of_blank (r := [' ']) rfl t
    have hcons : t ++ [' ', '\\'] = t ++ [' '] ++ ['\\'] := by simp
    rw [Text.glue_of_ne_nil hempty (by simp), hcons, broken?_append_backslash, hspace, ht]

/-- The rest of a broken line is joined without its comment marker. -/
theorem textAfter_marked {start gap : Text} (hgap : gap.isBlankText = true) (ht : t ≠ [])
    (hleft : t.trimLeft = t) (hright : t.EndsSolid) :
    textAfter (some start) ('/' :: '/' :: (gap ++ t)) = Text.glue start t := by
  have hline : Text.trimRight ('/' :: '/' :: (gap ++ t)) = '/' :: '/' :: (gap ++ t) :=
    hright.append ht ('/' :: '/' :: gap)
  have hmarker : withoutMarker ('/' :: '/' :: (gap ++ t)) = gap ++ t := rfl
  have hrest : Text.trimLeft (gap ++ t) = t := by
    rw [Text.trimLeft_of_blank_append hgap, hleft]
  rw [textAfter, Option.elim_some, hline, resume, hmarker, hrest]
  rfl

/-- A line that is broken at a space is joined to what it is as a whole. -/
theorem joinFrom_break (hpending : ∀ start ∈ pending, start.EndsSolid) (hne : line ≠ [])
    (hsolid : line.EndsSolid) {gap : Text} (hgap : gap.isBlankText = true) (ht : t ≠ [])
    (hleft : t.trimLeft = t) (hright : t.EndsSolid) (after : List Text) :
    joinFrom pending ((line ++ [' ', '\\']) :: ('/' :: '/' :: (gap ++ t)) :: after) =
      joinFrom pending ((line ++ ' ' :: t) :: after) := by
  have hfirst : textAfter pending (line ++ [' ', '\\']) =
      Text.glue (textAfter pending line) ['\\'] :=
    textAfter_append_space hne hsolid (by simp) rfl rfl
  have hbroken := broken?_glue_backslash (endsSolid_textAfter hpending line)
  rw [joinFrom_cons, hfirst, hbroken]
  dsimp only
  rw [joinFrom_cons, joinFrom_cons, textAfter_marked hgap ht hleft hright,
    textAfter_append_space hne hsolid ht hleft hright]

/-- What lines are joined to depends on what those at their end are joined to behind the others. -/
theorem joinFrom_append_congr {xs ys : List Text}
    (h : ∀ pending : Option Text, (∀ start ∈ pending, start.EndsSolid) →
      joinFrom pending xs = joinFrom pending ys) (before : List Text)
    (hpending : ∀ start ∈ pending, start.EndsSolid) :
    joinFrom pending (before ++ xs) = joinFrom pending (before ++ ys) := by
  induction before generalizing pending with
  | nil => exact h pending hpending
  | cons line before ih =>
    rw [List.cons_append, List.cons_append, joinFrom_cons, joinFrom_cons]
    cases hbroken : broken? (textAfter pending line) with
    | some start =>
      refine ih fun found hfound => ?_
      exact Option.mem_some.mp hfound ▸ endsSolid_of_broken? hbroken
    | none =>
      have hrest := ih endsSolid_of_mem_none
      exact congrArg (textAfter pending line :: ·) hrest

end Break

variable {lines broken : List String}

theorem joinLines_breaksLine (h : BreaksLine lines broken) :
    joinLines (broken.map (·.toList)) = joinLines (lines.map (·.toList)) := by
  obtain ⟨before, start, gap, rest, after, hstart, hsolid, hgap, hrest, htrimmed⟩ := h
  have htrim : Text.trim rest.toList = rest.toList := by
    rw [← toList_trimmed, htrimmed]
  have hbreak (pending : Option Text) (hpending : ∀ start ∈ pending, start.EndsSolid) :=
    joinFrom_break hpending (by simpa using hstart) hsolid hgap (by simpa using hrest)
      (Text.trimLeft_of_trim htrim) (Text.endsSolid_of_trim htrim) (after.map (·.toList))
  have hwhole := joinFrom_append_congr hbreak (before.map (·.toList)) endsSolid_of_mem_none
  simpa [joinLines] using hwhole

theorem SameButBreaks.joinLines_eq (h : SameButBreaks lines broken) :
    joinLines (lines.map (·.toList)) = joinLines (broken.map (·.toList)) := by
  induction h with
  | rel _ _ h => exact (joinLines_breaksLine h).symm
  | refl _ => rfl
  | symm _ _ _ ih => exact ih.symm
  | trans _ _ _ _ _ ih₁ ih₂ => exact ih₁.trans ih₂

end Comment

theorem CommentBlock.read_sameButBreaks {lines broken : List String}
    (h : Comment.SameButBreaks lines broken) (owner : String) :
    read owner lines = read owner broken := by
  unfold read
  rw [h.joinLines_eq]

/-- Both methods are the same but for where the lines of their comments are broken. -/
structure Method.SameButBreaks (m m' : Method) : Prop where
  signature : m' = { m with doc := m'.doc }
  doc : Comment.SameButBreaks m.doc m'.doc

/-- A method resolves as what is read of its comment says. -/
theorem Method.resolve_doc {m : Method} {doc : List String}
    (h : CommentBlock.read m.name doc = CommentBlock.read m.name m.doc) (aliases : AliasTable)
    (options : ResolveOptions) :
    resolve { m with doc } aliases options = m.resolve aliases options := by
  cases hblock : CommentBlock.read m.name m.doc with
  | error e =>
    unfold resolve
    rw [hblock, h.trans hblock]
    rfl
  | ok block =>
    have hblock' : CommentBlock.read { m with doc }.name { m with doc }.doc = .ok block :=
      h.trans hblock
    have hdirectives : resolveDirectives { m with doc } options block.description =
        m.resolveDirectives options block.description :=
      funext fun ds => resolveDirectives_doc doc
    rw [resolve_of_read hblock, resolve_of_read hblock', hdirectives]
    rfl

theorem Method.SameButBreaks.resolve_eq {m m' : Method} (h : m.SameButBreaks m')
    (aliases : AliasTable) (options : ResolveOptions) :
    m.resolve aliases options = m'.resolve aliases options := by
  rw [h.signature]
  exact (resolve_doc (CommentBlock.read_sameButBreaks h.doc m.name).symm aliases options).symm

namespace Interface

/-- Both interfaces are the same but for where the lines of their comments are broken. -/
structure SameButBreaks (i i' : Interface) : Prop where
  name : i.name = i'.name
  doc : Comment.SameButBreaks i.doc i'.doc
  methods : List.Forall₂ Method.SameButBreaks i.methods i'.methods

theorem SameButBreaks.resolve_eq {i i' : Interface} (h : i.SameButBreaks i')
    (options : ResolveOptions) : i.resolve options = i'.resolve options := by
  have hpreamble : i.preamble = i'.preamble := by
    unfold preamble
    rw [h.name, CommentBlock.read_sameButBreaks h.doc]
  have hmethods (aliases : AliasTable) :
      i.methods.map (·.resolve aliases options) = i'.methods.map (·.resolve aliases options) := by
    rw [← List.forall₂_eq_eq_eq, List.forall₂_map_left_iff, List.forall₂_map_right_iff]
    exact h.methods.imp fun _ _ hm => hm.resolve_eq aliases options
  unfold resolve
  simp only [hpreamble, hmethods]

end Interface

/-- Where lines are broken shows neither in the joined lines nor in what is read of a comment, nor
in what a method or an interface resolves to. -/
theorem lineBreaks_invisible :
    (∀ lines broken, Comment.SameButBreaks lines broken →
      Comment.join lines = Comment.join broken ∧
      ∀ owner, CommentBlock.read owner lines = CommentBlock.read owner broken) ∧
    (∀ (m m' : Method), m.SameButBreaks m' → ∀ aliases options,
      m.resolve aliases options = m'.resolve aliases options) ∧
    ∀ (i i' : Interface), i.SameButBreaks i' → ∀ options,
      i.resolve options = i'.resolve options := by
  refine ⟨fun lines broken h => ⟨?_, CommentBlock.read_sameButBreaks h⟩,
    fun _ _ h => h.resolve_eq, fun _ _ h => h.resolve_eq⟩
  unfold Comment.join
  rw [h.joinLines_eq]

/-- A method with its arguments in one line. -/
def whoAmI : Method where
  name := "WhoAmI"
  args := [⟨"ip", "string", .scalar⟩]
  returns := [⟨"text", "string", .scalar⟩]
  doc := ["//kun:op GET /me", "//kun:param ip in=header name=X-Real-IP, in=request name=RemoteAddr"]

/-- The same method with that line broken twice, the second time where it goes on. -/
def brokenWhoAmI : Method :=
  { whoAmI with
    doc := ["//kun:op GET /me", "//kun:param ip \\", "//   in=header name=X-Real-IP, \\",
      "// in=request name=RemoteAddr"] }

/-- The interface of that method. -/
def aboutMe : Interface := ⟨"AboutMe", ["//kun:oas title=Me version=2"], [whoAmI]⟩

/-- The same interface with its lines broken. -/
def brokenAboutMe : Interface :=
  ⟨"AboutMe", ["//kun:oas title=Me \\", "//version=2"], [brokenWhoAmI]⟩

theorem lineBreaks_invisible_of_aboutMe :
    aboutMe.SameButBreaks brokenAboutMe ∧
      Comment.join whoAmI.doc = Comment.join brokenWhoAmI.doc ∧
      whoAmI.resolve .empty {} = brokenWhoAmI.resolve .empty {} ∧
      aboutMe.resolve {} = brokenAboutMe.resolve {} ∧
      ((brokenAboutMe.resolve {}).toOption.map fun r => (r.spec.about.version,
          r.spec.operations.map fun o => o.request.bindings.map fun b => b.params.map (·.name))) =
        some ("2", [[["X-Real-IP", "RemoteAddr"]]]) := by
  have hfirst : Comment.BreaksLine whoAmI.doc
      ["//kun:op GET /me", "//kun:param ip \\",
        "//   in=header name=X-Real-IP, in=request name=RemoteAddr"] :=
    .line ["//kun:op GET /me"] "//kun:param ip" "   "
      "in=header name=X-Real-IP, in=request name=RemoteAddr" []
      (by decide) (by decide) (by decide) (by decide) (by decide)
  have hsecond : Comment.BreaksLine
      ["//kun:op GET /me", "//kun:param ip \\",
        "//   in=header name=X-Real-IP, in=request name=RemoteAddr"] brokenWhoAmI.doc :=
    .line ["//kun:op GET /me", "//kun:param ip \\"] "//   in=header name=X-Real-IP," " "
      "in=request name=RemoteAddr" []
      (by decide) (by decide) (by decide) (by decide) (by decide)
  have hdoc : Comment.SameButBreaks whoAmI.doc brokenWhoAmI.doc :=
    .trans _ _ _ (.rel _ _ hfirst) (.rel _ _ hsecond)
  have hmethod : whoAmI.SameButBreaks brokenWhoAmI := ⟨rfl, hdoc⟩
  have habout : Comment.BreaksLine aboutMe.doc brokenAboutMe.doc :=
    .line [] "//kun:oas title=Me" "" "version=2" []
      (by decide) (by decide) (by decide) (by decide) (by decide)
  have hinterface : aboutMe.SameButBreaks brokenAboutMe :=
    ⟨rfl, .rel _ _ habout, .cons hmethod .nil⟩
  exact ⟨hinterface, (lineBreaks_invisible.1 _ _ hdoc).1,
    lineBreaks_invisible.2.1 _ _ hmethod .empty {}, lineBreaks_invisible.2.2 _ _ hinterface {},
    by decide +kernel⟩

end Routespec
