import Routespec.Generation
import Routespec.Proofs.FileChanges
import Routespec.Session

/-!
# Runs on a tree of files

What a run comes to on files that are held as a value, and which files it leaves. Each stage either
stops the run or hands over to the next one, so there are few ways for a run to end.
-/

namespace Routespec

namespace Session

variable {α β : Type} {s s' : Session}

theorem eq_mk_of_fst {p : α × β} {a : α} (h : p.1 = a) : p = (a, p.2) := by
  rw [← h]

/-- What an attempt comes to in a session, and the session after it. -/
def attempt (s : Session) (x : Attempt (StateM Session) α) : Except Failure α × Session :=
  x.run.run s

theorem attempt_bind_ok {x : Attempt (StateM Session) α} {a : α}
    (h : s.attempt x = (.ok a, s')) (f : α → Attempt (StateM Session) β) :
    s.attempt (x >>= f) = s'.attempt (f a) := by
  simp only [attempt, ExceptT.run_bind, StateT.run_bind] at h ⊢
  rw [h]
  rfl

theorem attempt_bind_error {x : Attempt (StateM Session) α} {e : Failure}
    (h : s.attempt x = (.error e, s')) (f : α → Attempt (StateM Session) β) :
    s.attempt (x >>= f) = (.error e, s') := by
  simp only [attempt, ExceptT.run_bind, StateT.run_bind] at h ⊢
  rw [h]
  rfl

theorem attempt_pure (a : α) : s.attempt (pure a) = (.ok a, s) := rfl

theorem attempt_throw (e : Failure) : s.attempt (throw e : Attempt _ α) = (.error e, s) := rfl

theorem attempt_ofExcept (x : Except Failure α) : s.attempt (.ofExcept x) = (x, s) := rfl

theorem attempt_log (level : LogLevel) (message : String) :
    s.attempt (.log level message) = (.ok (), { s with log := s.log ++ [⟨level, message⟩] }) := rfl

theorem attempt_forM_log (s : Session) (level : LogLevel) (message : α → String) (l : List α) :
    ∃ log, s.attempt (l.forM fun a => .log level (message a)) = (.ok (), { s with log }) := by
  induction l generalizing s with
  | nil => exact ⟨s.log, rfl⟩
  | cons a l ih =>
    rw [List.forM, attempt_bind_ok (attempt_log level (message a))]
    exact ih _

theorem attempt_isPresent (path : String) :
    s.attempt (.isPresent path) = (.ok (s.tree.isPresent path), s) := rfl

theorem mapError_ok {ε ε' : Type} (f : ε → ε') (a : α) :
    (Except.ok a : Except ε α).mapError f = .ok a := rfl

theorem mapError_error {ε ε' : Type} (f : ε → ε') (e : ε) :
    (Except.error e : Except ε α).mapError f = .error (f e) := rfl

theorem attempt_readFile_ok {path text : String} (h : s.tree.read path = .ok text)
    (failure : AccessFault → Failure) :
    s.attempt (.orFail failure (Host.readFile path)) = (.ok text, s) := by
  change ((s.tree.read path).mapError failure, s) = _
  rw [h, mapError_ok]

theorem attempt_readFile_error {path : String} {e : AccessFault} (h : s.tree.read path = .error e)
    (failure : AccessFault → Failure) :
    s.attempt (.orFail failure (Host.readFile path)) = (.error (failure e), s) := by
  change ((s.tree.read path).mapError failure, s) = _
  rw [h, mapError_error]

theorem attempt_change_ok {f : FileTree → Except AccessFault FileTree} {tree : FileTree}
    (h : f s.tree = .ok tree) (failure : AccessFault → Failure) :
    s.attempt (.orFail failure (change f)) = (.ok (), { s with tree }) := by
  change (((change f s).1).mapError failure, (change f s).2) = _
  rw [change, h, mapError_ok]

theorem attempt_change_error {f : FileTree → Except AccessFault FileTree} {e : AccessFault}
    (h : f s.tree = .error e) (failure : AccessFault → Failure) :
    s.attempt (.orFail failure (change f)) = (.error (failure e), s) := by
  change (((change f s).1).mapError failure, (change f s).2) = _
  rw [change, h, mapError_error]

end Session

namespace Generation

open Session

/-- The file at a path describes an interface. -/
def Describes (t : FileTree) (path : String) (i : Interface) : Prop :=
  ∃ text, t.read path = .ok text ∧ (Json.read? text).bind Interface.ofJson? = some i

/-- The file at a path describes an interface all of whose methods resolve. -/
def Accepted (t : FileTree) (path : String) (options : ResolveOptions) (spec : Specification) :
    Prop :=
  ∃ i r, Describes t path i ∧ i.resolve options = .ok r ∧ r.errors = [] ∧ r.spec = spec

/-- Why there is no specification for the file at a path. -/
inductive Refused (t : FileTree) (path : String) (options : ResolveOptions) : Failure → Prop
  | unreadable {e} (h : t.read path = .error e) : Refused t path options (.unreadableInterface path)
  | malformed {text} (hread : t.read path = .ok text)
      (h : (Json.read? text).bind Interface.ofJson? = none) :
      Refused t path options (.malformedInterface path)
  | interfaceFault {i d} (hi : Describes t path i) (h : i.resolve options = .error d) :
      Refused t path options (.interfaceFault d)
  | methodFaults {i r} (hi : Describes t path i) (hr : i.resolve options = .ok r)
      (h : r.errors ≠ []) : Refused t path options (.methodFaults r.errors.length i.name)

theorem attempt_readInterface_of_describes {s : Session} {path : String} {i : Interface}
    (h : Describes s.tree path i) : s.attempt (readInterface path) = (.ok i, s) := by
  obtain ⟨text, hread, hi⟩ := h
  rw [readInterface, attempt_bind_ok (attempt_readFile_ok hread _), Attempt.ofOption,
    attempt_ofExcept, hi]
  rfl

theorem attempt_readInterface (s : Session) (path : String) :
    (∃ i, s.attempt (readInterface path) = (.ok i, s) ∧ Describes s.tree path i) ∨
      ∃ f, s.attempt (readInterface path) = (.error f, s) ∧
        ∀ options, Refused s.tree path options f := by
  rw [readInterface]
  cases hread : s.tree.read path with
  | error e =>
    rw [attempt_bind_error (attempt_readFile_error hread _)]
    exact .inr ⟨_, rfl, fun _ => .unreadable hread⟩
  | ok text =>
    rw [attempt_bind_ok (attempt_readFile_ok hread _), Attempt.ofOption, attempt_ofExcept]
    cases hi : (Json.read? text).bind Interface.ofJson? with
    | none => exact .inr ⟨_, rfl, fun _ => .malformed hread hi⟩
    | some i => exact .inl ⟨i, rfl, text, hread, hi⟩

theorem attempt_resolve {before : FileTree} {path : String} {i : Interface} (s : Session)
    (options : ResolveOptions) (hi : Describes before path i) :
    (∃ spec log, s.attempt (resolve i options) = (.ok spec, { s with log }) ∧
        Accepted before path options spec) ∨
      ∃ f log, s.attempt (resolve i options) = (.error f, { s with log }) ∧
        Refused before path options f := by
  rw [resolve]
  cases hr : i.resolve options with
  | error d =>
    rw [mapError_error, attempt_bind_error (attempt_ofExcept _)]
    exact .inr ⟨_, s.log, rfl, .interfaceFault hi hr⟩
  | ok r =>
    obtain ⟨log, hlog⟩ := attempt_forM_log s .info
      (fun n => s!"method {n.method}: {n.message}") r.notices
    rw [mapError_ok, attempt_bind_ok (attempt_ofExcept _), attempt_bind_ok hlog]
    by_cases herrors : r.errors = []
    · have hcomplete : r.isComplete = true := List.isEmpty_iff.mpr herrors
      rw [if_pos hcomplete, attempt_pure]
      exact .inl ⟨r.spec, log, rfl, i, r, hi, hr, herrors, rfl⟩
    · have hincomplete : ¬ r.isComplete = true := mt List.isEmpty_iff.mp herrors
      obtain ⟨log', hlog'⟩ := attempt_forM_log { s with log } .error
        (fun e => "[" ++ e.fault.kind.code ++ "] " ++ e.display) r.errors
      rw [if_neg hincomplete, attempt_bind_ok hlog', attempt_throw]
      exact .inr ⟨_, log', rfl, .methodFaults hi hr herrors⟩

/-- The file at a path holds fixtures. -/
def HoldsFixtures (t : FileTree) (path : String) (fixtures : Fixtures) : Prop :=
  ∃ text, t.read path = .ok text ∧ (Json.read? text).bind Fixtures.ofJson? = some fixtures

/-- Why what is at a path cannot be the fixtures of a specification. -/
inductive FixturesRefused (t : FileTree) (path : String) (spec : Specification) : Failure → Prop
  | unreadable {e} (h : t.read path = .error e) : FixturesRefused t path spec (.access e)
  | malformed {text} (hread : t.read path = .ok text)
      (h : (Json.read? text).bind Fixtures.ofJson? = none) :
      FixturesRefused t path spec (.malformedFixtures path)
  | unknownNames {fixtures} (hread : HoldsFixtures t path fixtures)
      (h : fixtures.unknownNames spec ≠ []) :
      FixturesRefused t path spec (.unknownOperations (fixtures.unknownNames spec))

/-- The file at a path holds fixtures of operations that a specification has. -/
def FixturesAccepted (t : FileTree) (path : String) (spec : Specification) (fixtures : Fixtures) :
    Prop :=
  t.isPresent path = true ∧ HoldsFixtures t path fixtures ∧ fixtures.unknownNames spec = []

theorem attempt_writeJson_ok {s : Session} {path : String} {v : Json.Value} {tree : FileTree}
    (h : s.tree.write path v.pretty = .ok tree) :
    s.attempt (writeJson path v) = (.ok (), { s with tree }) :=
  attempt_change_ok h _

theorem attempt_writeJson_error {s : Session} {path : String} {v : Json.Value} {e : AccessFault}
    (h : s.tree.write path v.pretty = .error e) :
    s.attempt (writeJson path v) = (.error (.unwritable path), s) :=
  attempt_change_error h _

theorem attempt_loadFixtures (s : Session) (path : String) :
    (∃ log, s.attempt (Fixtures.load path) = (.ok none, { s with log }) ∧
        s.tree.isPresent path = false) ∨
      s.tree.isPresent path = true ∧
        ((∃ fixtures, s.attempt (Fixtures.load path) = (.ok (some fixtures), s) ∧
            HoldsFixtures s.tree path fixtures) ∨
          ∃ f, s.attempt (Fixtures.load path) = (.error f, s) ∧
            ∀ spec, FixturesRefused s.tree path spec f) := by
  rw [Fixtures.load, attempt_bind_ok (attempt_isPresent path)]
  cases s.tree.isPresent path with
  | false => exact .inl ⟨_, rfl, rfl⟩
  | true =>
    refine .inr ⟨rfl, ?_⟩
    rw [if_pos rfl]
    cases hread : s.tree.read path with
    | error e =>
      rw [attempt_bind_error (attempt_readFile_error hread _)]
      exact .inr ⟨_, rfl, fun _ => .unreadable hread⟩
    | ok text =>
      rw [attempt_bind_ok (attempt_readFile_ok hread _), Attempt.ofOption]
      cases hf : (Json.read? text).bind Fixtures.ofJson? with
      | none => exact .inr ⟨_, rfl, fun _ => .malformed hread hf⟩
      | some fixtures => exact .inl ⟨fixtures, rfl, text, hread, hf⟩

theorem attempt_copyFixtures (s : Session) (path output : String) (spec : Specification) :
    (∃ log, s.attempt (copyFixtures path output spec) = (.ok (), { s with log }) ∧
        s.tree.isPresent path = false) ∨
      (∃ f, s.attempt (copyFixtures path output spec) = (.error f, s) ∧
        s.tree.isPresent path = true ∧ FixturesRefused s.tree path spec f) ∨
      ∃ fixtures, FixturesAccepted s.tree path spec fixtures ∧
        s.attempt (copyFixtures path output spec) =
          s.attempt (writeJson (FilePath.join output fixturesFile) fixtures.toJson) := by
  rw [copyFixtures]
  rcases attempt_loadFixtures s path with
    ⟨log, hload, habsent⟩ | ⟨hpresent, ⟨fixtures, hload, hholds⟩ | ⟨f, hload, hf⟩⟩
  · rw [attempt_bind_ok hload]
    exact .inl ⟨log, rfl, habsent⟩
  · rw [attempt_bind_ok hload]
    refine .inr ?_
    cases hunknown : fixtures.unknownNames spec with
    | nil =>
      have hcheck : fixtures.check spec = .ok () := by rw [Fixtures.check, hunknown]
      refine .inr ⟨fixtures, ⟨hpresent, hholds, hunknown⟩, ?_⟩
      dsimp only
      rw [hcheck]
      exact attempt_bind_ok (attempt_ofExcept _) _
    | cons name names =>
      have hcheck : fixtures.check spec =
          .error (.unknownOperations (fixtures.unknownNames spec)) := by
        rw [Fixtures.check, hunknown]
      refine .inl ⟨_, ?_, hpresent, .unknownNames hholds (hunknown ▸ List.cons_ne_nil _ _)⟩
      dsimp only
      rw [hcheck]
      exact attempt_bind_error (attempt_ofExcept _) _
  · rw [attempt_bind_error hload]
    exact .inr (.inl ⟨f, rfl, hpresent, hf spec⟩)

/-- The specification has been written into its folder. -/
def Published (before : FileTree) (output : String) (spec : Specification) (after : FileTree) :
    Prop :=
  ∃ made, before.makeFolders output = .ok made ∧
    made.write (FilePath.join output specFile) spec.toJson.pretty = .ok after

/-- An output of a run cannot be made or written. -/
inductive OutputFault (before : FileTree) (output : String) (config : Config)
    (spec : Specification) : Failure → FileTree → Prop
  | folder {e} (h : before.makeFolders output = .error e) :
      OutputFault before output config spec (.access e) before
  | specification {made e} (hmade : before.makeFolders output = .ok made)
      (h : made.write (FilePath.join output specFile) spec.toJson.pretty = .error e) :
      OutputFault before output config spec (.unwritable (FilePath.join output specFile)) made
  | fixtures {path fixtures written e} (hpath : config.fixtures = some path)
      (hspec : Published before output spec written)
      (haccepted : FixturesAccepted written path spec fixtures)
      (h : written.write (FilePath.join output fixturesFile) fixtures.toJson.pretty = .error e) :
      OutputFault before output config spec (.unwritable (FilePath.join output fixturesFile))
        written

/-- The ways for a run on the files `before` to end. -/
inductive Ends (before : FileTree) (input output : String) (config : Config) :
    Except Failure Specification → FileTree → Prop
  | refused {f} (h : Refused before input config.resolve f) :
      Ends before input output config (.error f) before
  | outputFault {spec f after} (hspec : Accepted before input config.resolve spec)
      (h : OutputFault before output config spec f after) :
      Ends before input output config (.error f) after
  | fixturesRefused {spec path f after} (hspec : Accepted before input config.resolve spec)
      (hpublished : Published before output spec after) (hpath : config.fixtures = some path)
      (hpresent : after.isPresent path = true) (h : FixturesRefused after path spec f) :
      Ends before input output config (.error f) after
  | withoutFixtures {spec after} (hspec : Accepted before input config.resolve spec)
      (hpublished : Published before output spec after)
      (habsent : ∀ path, config.fixtures = some path → after.isPresent path = false) :
      Ends before input output config (.ok spec) after
  | withFixtures {spec path fixtures written after}
      (hspec : Accepted before input config.resolve spec)
      (hpublished : Published before output spec written) (hpath : config.fixtures = some path)
      (haccepted : FixturesAccepted written path spec fixtures)
      (h : written.write (FilePath.join output fixturesFile) fixtures.toJson.pretty = .ok after) :
      Ends before input output config (.ok spec) after

/-- What a run does with the fixtures once the specification has been written. -/
theorem exists_ends_of_published {before written : FileTree} {input output : String}
    {config : Config} {spec : Specification} (hspec : Accepted before input config.resolve spec)
    (hpublished : Published before output spec written) (log : List LogEntry) :
    ∃ r s', Session.attempt ⟨written, log⟩ (do
        if let some path := config.fixtures then copyFixtures path output spec
        return spec) = (r, s') ∧
      Ends before input output config r s'.tree := by
  cases hpath : config.fixtures with
  | none => exact ⟨_, _, rfl, .withoutFixtures hspec hpublished (by simp [hpath])⟩
  | some path =>
    rcases attempt_copyFixtures ⟨written, log⟩ path output spec with
      ⟨log, hcopy, habsent⟩ | ⟨f, hcopy, hpresent, hf⟩ | ⟨fixtures, haccepted, hcopy⟩
    · rw [attempt_bind_ok hcopy]
      refine ⟨_, _, rfl, .withoutFixtures hspec hpublished fun path' hpath' => ?_⟩
      rw [hpath, Option.some.injEq] at hpath'
      exact hpath' ▸ habsent
    · rw [attempt_bind_error hcopy]
      exact ⟨_, _, rfl, .fixturesRefused hspec hpublished hpath hpresent hf⟩
    · cases hwrite : written.write (FilePath.join output fixturesFile) fixtures.toJson.pretty with
      | error e =>
        rw [attempt_bind_error (hcopy.trans (attempt_writeJson_error hwrite))]
        exact ⟨_, _, rfl, .outputFault hspec (.fixtures hpath hpublished haccepted hwrite)⟩
      | ok after =>
        rw [attempt_bind_ok (hcopy.trans (attempt_writeJson_ok hwrite))]
        exact ⟨_, _, rfl, .withFixtures hspec hpublished hpath haccepted hwrite⟩

/-- A run ends in one of these ways. -/
theorem exists_ends (s : Session) (input output : String) (config : Config) :
    ∃ r s', s.attempt (run input output config) = (r, s') ∧
      Ends s.tree input output config r s'.tree := by
  rw [run, attempt_bind_ok (attempt_log _ _)]
  generalize s.log ++ [(⟨.info, s!"Reading interface: {input}"⟩ : LogEntry)] = log
  rcases attempt_readInterface { s with log } input with ⟨i, hread, hi⟩ | ⟨f, hread, hf⟩
  case inr =>
    rw [attempt_bind_error hread]
    exact ⟨_, _, rfl, .refused (hf _)⟩
  rw [attempt_bind_ok hread]
  rcases attempt_resolve { s with log } config.resolve hi with
    ⟨spec, log, hresolve, hspec⟩ | ⟨f, log, hresolve, hf⟩
  case inr =>
    rw [attempt_bind_error hresolve]
    exact ⟨_, _, rfl, .refused hf⟩
  rw [attempt_bind_ok hresolve]
  cases hmade : s.tree.makeFolders output with
  | error e =>
    have hfolder : ({ s with log } : Session).attempt (.orFail .access (Host.makeFolders output)) =
        (.error (.access e), { s with log }) := attempt_change_error hmade _
    rw [attempt_bind_error hfolder]
    exact ⟨_, _, rfl, .outputFault hspec (.folder hmade)⟩
  | ok made =>
    have hfolder : ({ s with log } : Session).attempt (.orFail .access (Host.makeFolders output)) =
        (.ok (), ⟨made, log⟩) := attempt_change_ok hmade _
    rw [attempt_bind_ok hfolder]
    cases hwrite : made.write (FilePath.join output specFile) spec.toJson.pretty with
    | error e =>
      rw [attempt_bind_error (attempt_writeJson_error hwrite)]
      exact ⟨_, _, rfl, .outputFault hspec (.specification hmade hwrite)⟩
    | ok written =>
      rw [attempt_bind_ok (attempt_writeJson_ok hwrite), attempt_bind_ok (attempt_log _ _)]
      exact exists_ends_of_published hspec ⟨made, hmade, hwrite⟩ _

theorem ends_of_attempt {s s' : Session} {input output : String} {config : Config}
    {r : Except Failure Specification} (h : s.attempt (run input output config) = (r, s')) :
    Ends s.tree input output config r s'.tree := by
  obtain ⟨r₁, s₁, hrun, hends⟩ := exists_ends s input output config
  rw [h] at hrun
  obtain ⟨rfl, rfl⟩ := Prod.mk.inj hrun
  exact hends

namespace Published

variable {before after : FileTree} {output : String} {spec : Specification}

/-- A published specification is in its file, and no other file has changed. -/
theorem changed (h : Published before output spec after) :
    ∃ a, after.locate (FilePath.join output specFile) = .ok a ∧
      after.get? a = some (.file spec.toJson.pretty) ∧ before.Changed after [a] := by
  obtain ⟨made, hmade, hwrite⟩ := h
  obtain ⟨a, hlocate, hget, hchanged⟩ := FileTree.changed_of_write hwrite
  exact ⟨a, hlocate, hget, (FileTree.changed_of_makeFolders hmade).trans hchanged⟩

theorem read (h : Published before output spec after) :
    after.read (FilePath.join output specFile) = .ok spec.toJson.pretty := by
  obtain ⟨a, hlocate, hget, -⟩ := h.changed
  exact FileTree.read_eq_ok.mpr ⟨a, hlocate, hget⟩

/-- Publishing a specification leaves the files as they are only where it was published before. -/
theorem unchanged_iff (h : Published before output spec after) :
    (∀ a, after.get? a = before.get? a) ↔
      before.read (FilePath.join output specFile) = .ok spec.toJson.pretty := by
  constructor
  · intro hsame
    obtain ⟨a, hlocate, hget⟩ := FileTree.read_eq_ok.mp h.read
    have hback : after.Changed before [] := fun b => .inl (hsame b).symm
    exact FileTree.read_eq_ok.mpr ⟨a, hback.locate hlocate, hsame a ▸ hget⟩
  · intro hread
    obtain ⟨a, hlocate, hget⟩ := FileTree.read_eq_ok.mp hread
    obtain ⟨made, hmade, hwrite⟩ := h
    -- a path leads through the folder, so that is there and nothing is made
    rw [FileTree.makeFolders_of_locate_join (by decide) hlocate, Except.ok.injEq] at hmade
    subst hmade
    obtain ⟨a', hlocate', hne, rfl⟩ := FileTree.write_eq_ok.mp hwrite
    obtain rfl : a = a' := Except.ok.inj (hlocate.symm.trans hlocate')
    intro b
    rw [FileTree.get?_set _ (FileTree.names_ne_nil_of_get? hne)]
    split
    · rename_i hb
      rw [hb, hget]
    · rfl

end Published

/-- The two outputs of a run are not at the same place. -/
theorem ne_of_locate_outputs {t : FileTree} {output : String} {a b : FileAddress}
    (ha : t.locate (FilePath.join output specFile) = .ok a)
    (hb : t.locate (FilePath.join output fixturesFile) = .ok b) : a ≠ b := by
  rintro rfl
  have hspec := FileTree.names_of_locate_join (by decide) (by decide) ha
  have hfixtures := FileTree.names_of_locate_join (by decide) (by decide) hb
  have hname : specFile = fixturesFile := Option.some.inj (hspec.symm.trans hfixtures)
  exact absurd hname (by decide)

/-- After a run that returns a specification, that is what the file holds. -/
theorem read_specification_of_attempt {s s' : Session} {input output : String} {config : Config}
    {spec : Specification} (h : s.attempt (run input output config) = (.ok spec, s')) :
    s'.tree.read (FilePath.join output specFile) = .ok spec.toJson.pretty := by
  have hends := ends_of_attempt h
  generalize s'.tree = after at hends ⊢
  cases hends with
  | withoutFixtures _ hpublished _ => exact hpublished.read
  | withFixtures _ hpublished _ _ hwrite =>
    obtain ⟨a, hlocate, hget, -⟩ := hpublished.changed
    obtain ⟨b, hplace, -, hchanged⟩ := FileTree.changed_of_write hwrite
    have hspec := hchanged.locate hlocate
    have hne : a ≠ b := ne_of_locate_outputs hspec hplace
    exact FileTree.read_eq_ok.mpr ⟨a, hspec, (hchanged.file_iff_of_ne hne _).mpr hget⟩

end Generation

end Routespec
