import Routespec.PathPattern
import Routespec.Proofs.Checked

/-!
# What is a URL pattern

A pattern is made of text without braces and of variables in braces, whose names are distinct and
not empty. Where a text is none, the first defect from the left decides the fault: only a repeated
name is a conflict, and everything else is malformed.
-/

namespace Routespec

namespace PathPattern

/-- Text without braces. -/
def BraceFree (t : Text) : Prop := ∀ c ∈ t, c ≠ '{' ∧ c ≠ '}'

/-- A part of a pattern. -/
inductive Piece
  | literal (content : Text)
  /-- A variable, with what stands between its braces. -/
  | braced (content : Text)

namespace Piece

/-- What the part has no braces in. -/
def content : Piece → Text
  | .literal t => t
  | .braced t => t

/-- The part as written. -/
def text : Piece → Text
  | .literal t => t
  | .braced t => '{' :: (t ++ ['}'])

/-- The name of the variable, if the part is one. -/
def name? : Piece → Option String
  | .literal _ => none
  | .braced t => some (String.ofList (variableName t))

end Piece

/-- The names of the variables among the parts of a pattern. -/
def names (pieces : List Piece) : List String := pieces.filterMap Piece.name?

/-- The parts make a pattern that goes on behind the variables `earlier`. -/
structure Sound (earlier : List String) (pieces : List Piece) : Prop where
  braceFree : ∀ piece ∈ pieces, BraceFree piece.content
  named : ∀ name ∈ names pieces, name ≠ ""
  fresh : ∀ name ∈ names pieces, name ∉ earlier
  distinct : (names pieces).Nodup

/-- The pattern is well formed, and its variables are `vs` in order. -/
def IsWellFormed (pattern : String) (vs : List String) : Prop :=
  pattern.toList.head? = some '/' ∧
    ∃ pieces, Sound [] pieces ∧ pattern.toList = pieces.flatMap (·.text) ∧ vs = names pieces

/-- What can be wrong with a pattern. -/
inductive Defect
  /-- The pattern does not start with a slash. -/
  | unrooted
  /-- A brace has no partner, or stands inside another pair. -/
  | unbalanced
  /-- A variable has no name. -/
  | unnamed
  /-- A variable has the name of an earlier one. -/
  | repeated (name : String)

/-- The cause that a pattern with this defect is reported with. -/
def Defect.cause (pattern : String) : Defect → Cause
  | .unrooted => .unrootedPattern pattern
  | .unbalanced => .unbalancedPattern pattern
  | .unnamed => .emptyPathVariable pattern
  | .repeated name => .repeatedPathVariable name pattern

/-- The text starts with the defect, behind variables named `earlier`. -/
inductive Defect.Begins (earlier : List String) : Defect → Text → Prop
  | unopened (rest : Text) : Begins earlier .unbalanced ('}' :: rest)
  | unclosed {inner : Text} (hinner : BraceFree inner) : Begins earlier .unbalanced ('{' :: inner)
  | nested {inner : Text} (hinner : BraceFree inner) (rest : Text) :
    Begins earlier .unbalanced ('{' :: (inner ++ '{' :: rest))
  | unnamed {inner : Text} (hinner : BraceFree inner)
    (hname : String.ofList (variableName inner) = "") (rest : Text) :
    Begins earlier .unnamed ('{' :: (inner ++ '}' :: rest))
  | repeated {inner : Text} (hinner : BraceFree inner)
    (hname : String.ofList (variableName inner) ∈ earlier) (rest : Text) :
    Begins earlier (.repeated (String.ofList (variableName inner)))
      ('{' :: (inner ++ '}' :: rest))

/-- The defect is the first one of the pattern from the left: all before it is well formed. -/
inductive FirstDefect (pattern : String) : Defect → Prop
  | unrooted (hroot : pattern.toList.head? ≠ some '/') : FirstDefect pattern .unrooted
  | behind {pieces : List Piece} {rest : Text} {d : Defect}
    (hroot : pattern.toList.head? = some '/') (hpieces : Sound [] pieces)
    (htext : pattern.toList = pieces.flatMap (·.text) ++ rest)
    (hdefect : d.Begins (names pieces) rest) : FirstDefect pattern d

section Reading

variable {pattern : String} {seen : List String}

theorem varsFrom_none_append {u : Text} (hu : BraceFree u) (rest : Text) :
    varsFrom pattern seen none (u ++ rest) = varsFrom pattern seen none rest := by
  induction u with
  | nil => rfl
  | cons c u ih =>
    rw [BraceFree, List.forall_mem_cons] at hu
    rw [List.cons_append, varsFrom, if_neg hu.1.1, if_neg hu.1.2, ih hu.2]

theorem varsFrom_some_append {u : Text} (hu : BraceFree u) (inner rest : Text) :
    varsFrom pattern seen (some inner) (u ++ rest) =
      varsFrom pattern seen (some (inner ++ u)) rest := by
  induction u generalizing inner with
  | nil => rw [List.nil_append, List.append_nil]
  | cons c u ih =>
    rw [BraceFree, List.forall_mem_cons] at hu
    rw [List.cons_append, varsFrom, if_neg hu.1.1, if_neg hu.1.2, ih hu.2, List.append_assoc,
      List.singleton_append]

theorem varsFrom_opened {inner : Text} (hinner : BraceFree inner) (rest : Text) :
    varsFrom pattern seen none ('{' :: (inner ++ rest)) =
      varsFrom pattern seen (some inner) rest := by
  rw [varsFrom, if_pos rfl, varsFrom_some_append hinner, List.nil_append]

theorem varsFrom_braced {inner : Text} (hinner : BraceFree inner) (rest : Text) :
    varsFrom pattern seen none ('{' :: (inner ++ '}' :: rest)) =
      let name := String.ofList (variableName inner)
      if name = "" then fail (.emptyPathVariable pattern)
      else if name ∈ seen then fail (.repeatedPathVariable name pattern)
      else (varsFrom pattern (name :: seen) none rest).map (name :: ·) := by
  rw [varsFrom_opened hinner, varsFrom, if_neg (by decide), if_pos rfl]

theorem sound_literal {t : Text} {pieces : List Piece} :
    Sound seen (.literal t :: pieces) ↔ BraceFree t ∧ Sound seen pieces := by
  constructor
  · rintro ⟨hfree, hnamed, hfresh, hdistinct⟩
    rw [List.forall_mem_cons] at hfree
    exact ⟨hfree.1, hfree.2, hnamed, hfresh, hdistinct⟩
  · rintro ⟨ht, hfree, hnamed, hfresh, hdistinct⟩
    exact ⟨List.forall_mem_cons.mpr ⟨ht, hfree⟩, hnamed, hfresh, hdistinct⟩

theorem names_braced (t : Text) (pieces : List Piece) :
    names (.braced t :: pieces) = String.ofList (variableName t) :: names pieces := rfl

theorem sound_braced {t : Text} {pieces : List Piece} :
    Sound seen (.braced t :: pieces) ↔ BraceFree t ∧ String.ofList (variableName t) ≠ "" ∧
      String.ofList (variableName t) ∉ seen ∧
      Sound (String.ofList (variableName t) :: seen) pieces := by
  generalize hname : String.ofList (variableName t) = name
  have hnames : names (.braced t :: pieces) = name :: names pieces := by rw [names_braced, hname]
  constructor
  · rintro ⟨hfree, hnamed, hfresh, hdistinct⟩
    rw [hnames] at hnamed hfresh hdistinct
    rw [List.forall_mem_cons] at hfree hnamed hfresh
    rw [List.nodup_cons] at hdistinct
    refine ⟨hfree.1, hnamed.1, hfresh.1, hfree.2, hnamed.2, fun other hother hmem => ?_,
      hdistinct.2⟩
    rcases List.mem_cons.mp hmem with rfl | hmem
    · exact hdistinct.1 hother
    · exact hfresh.2 other hother hmem
  · rintro ⟨ht, hname, hseen, hfree, hnamed, hfresh, hdistinct⟩
    have hother (other : String) (hother : other ∈ names pieces) : other ≠ name ∧ other ∉ seen := by
      simpa using hfresh other hother
    constructor
    · exact List.forall_mem_cons.mpr ⟨ht, hfree⟩
    · rw [hnames]
      exact List.forall_mem_cons.mpr ⟨hname, hnamed⟩
    · rw [hnames]
      exact List.forall_mem_cons.mpr ⟨hseen, fun other h => (hother other h).2⟩
    · rw [hnames]
      exact List.nodup_cons.mpr ⟨fun h => (hother name h).1 rfl, hdistinct⟩

/-- The variables of well-formed parts are read, whatever follows them. -/
theorem varsFrom_pieces {pieces : List Piece} (h : Sound seen pieces) (rest : Text) :
    varsFrom pattern seen none (pieces.flatMap (·.text) ++ rest) =
      (varsFrom pattern ((names pieces).reverse ++ seen) none rest).map (names pieces ++ ·) := by
  induction pieces generalizing seen with
  | nil =>
    change varsFrom pattern seen none rest = (varsFrom pattern seen none rest).map id
    cases varsFrom pattern seen none rest <;> rfl
  | cons piece pieces ih =>
    rw [List.flatMap_cons, List.append_assoc]
    cases piece with
    | literal t =>
      obtain ⟨ht, hpieces⟩ := sound_literal.mp h
      exact (varsFrom_none_append ht _).trans (ih hpieces)
    | braced t =>
      obtain ⟨ht, hname, hseen, hpieces⟩ := sound_braced.mp h
      have htext : (Piece.braced t).text ++ (pieces.flatMap (·.text) ++ rest) =
          '{' :: (t ++ '}' :: (pieces.flatMap (·.text) ++ rest)) := by
        simp [Piece.text]
      rw [htext, varsFrom_braced ht]
      dsimp only
      rw [if_neg hname, if_neg hseen, ih hpieces, names_braced, List.reverse_cons,
        List.append_assoc, List.singleton_append]
      cases varsFrom pattern ((names pieces).reverse ++ String.ofList (variableName t) :: seen)
        none rest <;> rfl

/-- A defect stops the reading. -/
theorem varsFrom_of_begins {d : Defect} {t : Text} (h : d.Begins seen t) (hseen : "" ∉ seen) :
    varsFrom pattern seen none t = fail (d.cause pattern) := by
  cases h with
  | unopened rest => rw [varsFrom, if_neg (by decide), if_pos rfl, Defect.cause]
  | @unclosed inner hinner =>
    have hopened : varsFrom pattern seen none ('{' :: (inner ++ [])) = _ :=
      varsFrom_opened hinner []
    rw [List.append_nil] at hopened
    rw [hopened, varsFrom, Defect.cause]
  | nested hinner rest => rw [varsFrom_opened hinner, varsFrom, if_pos rfl, Defect.cause]
  | unnamed hinner hname rest =>
    rw [varsFrom_braced hinner]
    dsimp only
    rw [if_pos hname, Defect.cause]
  | repeated hinner hname rest =>
    rw [varsFrom_braced hinner]
    dsimp only
    rw [if_neg (ne_of_mem_of_not_mem hname hseen), if_pos hname, Defect.cause]

end Reading

/-- A text up to its first brace. -/
theorem exists_braceFree_append (t : Text) : ∃ u rest, t = u ++ rest ∧ BraceFree u ∧
    (rest = [] ∨ ∃ r, rest = '{' :: r ∨ rest = '}' :: r) := by
  induction t with
  | nil => exact ⟨[], [], rfl, by simp [BraceFree], .inl rfl⟩
  | cons c t ih =>
    by_cases hc : c ≠ '{' ∧ c ≠ '}'
    · obtain ⟨u, rest, rfl, hu, hrest⟩ := ih
      exact ⟨c :: u, rest, rfl, List.forall_mem_cons.mpr ⟨hc, hu⟩, hrest⟩
    · refine ⟨[], c :: t, rfl, by simp [BraceFree], .inr ⟨t, ?_⟩⟩
      by_cases hopen : c = '{'
      · exact .inl (by rw [hopen])
      · exact .inr (by rw [not_and_not_right.mp hc hopen])

theorem Defect.Begins.mono {d : Defect} {earlier earlier' : List String} {t : Text}
    (h : d.Begins earlier t) (hsub : ∀ name ∈ earlier, name ∈ earlier') : d.Begins earlier' t := by
  cases h with
  | unopened rest => exact .unopened rest
  | unclosed hinner => exact .unclosed hinner
  | nested hinner rest => exact .nested hinner rest
  | unnamed hinner hname rest => exact .unnamed hinner hname rest
  | repeated hinner hname rest => exact .repeated hinner (hsub _ hname) rest

/-- Every text is made of well-formed parts, or of such parts and a defect behind them. -/
theorem exists_pieces (seen : List String) (t : Text) : ∃ pieces rest, Sound seen pieces ∧
    t = pieces.flatMap (·.text) ++ rest ∧
    (rest = [] ∨ ∃ d : Defect, d.Begins (names pieces ++ seen) rest) := by
  obtain ⟨u, rest, ht, hu, hrest⟩ := exists_braceFree_append t
  have hlead : Sound seen [.literal u] := sound_literal.mpr ⟨hu, by constructor <;> simp [names]⟩
  have htext : t = [Piece.literal u].flatMap (·.text) ++ rest := by simpa [Piece.text] using ht
  obtain rfl | ⟨r, rfl | rfl⟩ := hrest
  · exact ⟨_, _, hlead, htext, .inl rfl⟩
  · -- a brace is opened: what stands at the next brace decides
    obtain ⟨inner, rest, rfl, hinner, rfl | ⟨r, rfl | rfl⟩⟩ := exists_braceFree_append r
    · rw [List.append_nil] at htext
      exact ⟨_, _, hlead, htext, .inr ⟨_, .unclosed hinner⟩⟩
    · exact ⟨_, _, hlead, htext, .inr ⟨_, .nested hinner r⟩⟩
    · by_cases hname : String.ofList (variableName inner) = ""
      · exact ⟨_, _, hlead, htext, .inr ⟨_, .unnamed hinner hname r⟩⟩
      by_cases hseen : String.ofList (variableName inner) ∈ seen
      · exact ⟨_, _, hlead, htext, .inr ⟨_, .repeated hinner hseen r⟩⟩
      have : r.length < t.length := by simp [ht]; omega
      obtain ⟨pieces, rest, hpieces, rfl, hrest⟩ :=
        exists_pieces (String.ofList (variableName inner) :: seen) r
      refine ⟨.literal u :: .braced inner :: pieces, rest,
        sound_literal.mpr ⟨hu, sound_braced.mpr ⟨hinner, hname, hseen, hpieces⟩⟩,
        by simp [ht, Piece.text], hrest.imp_right ?_⟩
      rintro ⟨d, hd⟩
      exact ⟨d, hd.mono fun name => List.perm_middle.mem_iff.mp⟩
  · exact ⟨_, _, hlead, htext, .inr ⟨_, .unopened r⟩⟩
  termination_by t.length

/-- A well-formed pattern is read. -/
theorem vars_of_isWellFormed {pattern : String} {vs : List String}
    (h : IsWellFormed pattern vs) : vars pattern = .ok vs := by
  obtain ⟨hroot, pieces, hpieces, htext, rfl⟩ := h
  have hread : varsFrom pattern [] none (pieces.flatMap (·.text) ++ []) = _ :=
    varsFrom_pieces hpieces []
  rw [List.append_nil, ← htext] at hread
  rw [vars, if_pos hroot, hread, varsFrom, Except.map, List.append_nil]

/-- The first defect of a pattern is what reading it stops with. -/
theorem vars_of_firstDefect {pattern : String} {d : Defect} (h : FirstDefect pattern d) :
    vars pattern = fail (d.cause pattern) := by
  cases h with
  | unrooted hroot => rw [vars, if_neg hroot, Defect.cause]
  | @behind pieces rest _ hroot hpieces htext hdefect =>
    have hnames : ∀ name ∈ names pieces, name ∈ (names pieces).reverse ++ [] := by simp
    have hempty : "" ∉ (names pieces).reverse ++ [] := by
      simpa using fun hmem => hpieces.named "" hmem rfl
    rw [vars, if_pos hroot, htext, varsFrom_pieces hpieces,
      varsFrom_of_begins (hdefect.mono hnames) hempty]
    rfl

theorem isWellFormed_or_firstDefect (pattern : String) :
    (∃ vs, IsWellFormed pattern vs) ∨ ∃ d, FirstDefect pattern d := by
  by_cases hroot : pattern.toList.head? = some '/'
  · obtain ⟨pieces, rest, hpieces, htext, rfl | ⟨d, hd⟩⟩ := exists_pieces [] pattern.toList
    · rw [List.append_nil] at htext
      exact .inl ⟨_, hroot, pieces, hpieces, htext, rfl⟩
    · rw [List.append_nil] at hd
      exact .inr ⟨d, .behind hroot hpieces htext hd⟩
  · exact .inr ⟨_, .unrooted hroot⟩

theorem vars_eq_ok {pattern : String} {vs : List String} :
    vars pattern = .ok vs ↔ IsWellFormed pattern vs := by
  refine ⟨fun h => ?_, vars_of_isWellFormed⟩
  obtain ⟨vs', hvs'⟩ | ⟨d, hd⟩ := isWellFormed_or_firstDefect pattern
  · rw [vars_of_isWellFormed hvs', Except.ok.injEq] at h
    exact h ▸ hvs'
  · rw [vars_of_firstDefect hd] at h
    exact absurd h fail_ne_ok

theorem vars_eq_error {pattern : String} {f : Fault} :
    vars pattern = .error f ↔ ∃ d, FirstDefect pattern d ∧ f = (d.cause pattern).fault := by
  constructor
  · intro h
    obtain ⟨vs, hvs⟩ | ⟨d, hd⟩ := isWellFormed_or_firstDefect pattern
    · rw [vars_of_isWellFormed hvs] at h
      cases h
    · rw [vars_of_firstDefect hd, fail, Except.error.injEq] at h
      exact ⟨d, hd, h.symm⟩
  · rintro ⟨d, hd, rfl⟩
    exact vars_of_firstDefect hd

theorem Defect.kind_cause (pattern : String) (d : Defect) :
    ((d.cause pattern).kind = .conflict ↔ ∃ name, d = .repeated name) ∧
    ((d.cause pattern).kind = .syntaxError ↔ ∀ name, d ≠ .repeated name) := by
  cases d <;> simp [cause, Cause.kind]

/-- Reading a pattern gives its variables exactly if it is well formed, and otherwise stops with
its first defect: in conflict if that is a repeated name, as malformed if it is any other. -/
theorem vars_outcome (pattern : String) :
    (∀ vs, vars pattern = .ok vs ↔ IsWellFormed pattern vs) ∧
    (∀ f, vars pattern = .error f ↔
      ∃ d, FirstDefect pattern d ∧ f = (d.cause pattern).fault) ∧
    ((∃ f, vars pattern = .error f ∧ f.kind = .conflict) ↔
      ∃ name, FirstDefect pattern (.repeated name)) ∧
    ((∃ f, vars pattern = .error f ∧ f.kind = .syntaxError) ↔
      ∃ d, FirstDefect pattern d ∧ ∀ name, d ≠ .repeated name) := by
  refine ⟨fun vs => vars_eq_ok, fun f => vars_eq_error, ⟨?_, ?_⟩, ⟨?_, ?_⟩⟩
  · rintro ⟨f, hf, hkind⟩
    obtain ⟨d, hd, rfl⟩ := vars_eq_error.mp hf
    obtain ⟨name, rfl⟩ := (d.kind_cause pattern).1.mp hkind
    exact ⟨name, hd⟩
  · rintro ⟨name, hd⟩
    exact ⟨_, vars_eq_error.mpr ⟨_, hd, rfl⟩, rfl⟩
  · rintro ⟨f, hf, hkind⟩
    obtain ⟨d, hd, rfl⟩ := vars_eq_error.mp hf
    exact ⟨d, hd, (d.kind_cause pattern).2.mp hkind⟩
  · rintro ⟨d, hd, hother⟩
    exact ⟨_, vars_eq_error.mpr ⟨d, hd, rfl⟩, (d.kind_cause pattern).2.mpr hother⟩

example : vars "/notes/{id:[0-9]+}/{ part }" = .ok ["id", "part"] := by decide

end PathPattern

end Routespec
