import Routespec.Proofs.Checked
import Routespec.Proofs.Runs

/-!
# What a failed run leaves behind

A description that is refused stops a run before it touches any file. Fixtures are looked at only
once the specification is written; a run that they stop leaves the specification in its folder.
-/

namespace Routespec

namespace Generation

open Session

theorem OutputFault.ne_unknownOperations {before after : FileTree} {output : String}
    {config : Config} {spec : Specification} {f : Failure} {names : List String}
    (h : OutputFault before output config spec f after) : f ≠ .unknownOperations names := by
  cases h <;> nofun

/-- A run that fails changes nothing if the description is refused. If the fixtures are refused
it leaves the specification in its folder; then the files are as before only if they held that
specification already. Otherwise one of its outputs could not be made. -/
theorem failed_run_leaves (s s' : Session) (input output : String) (config : Config) (f : Failure)
    (h : s.attempt (run input output config) = (.error f, s')) :
    (Refused s.tree input config.resolve f ∧ s'.tree = s.tree) ∨
    (∃ spec, Accepted s.tree input config.resolve spec ∧
      OutputFault s.tree output config spec f s'.tree) ∨
    ∃ spec path a, Accepted s.tree input config.resolve spec ∧ config.fixtures = some path ∧
      s'.tree.isPresent path = true ∧ FixturesRefused s'.tree path spec f ∧
      s'.tree.locate (FilePath.join output specFile) = .ok a ∧
      s'.tree.get? a = some (.file spec.toJson.pretty) ∧ s.tree.Changed s'.tree [a] ∧
      ((∀ b, s'.tree.get? b = s.tree.get? b) ↔
        s.tree.read (FilePath.join output specFile) = .ok spec.toJson.pretty) := by
  have hends := ends_of_attempt h
  generalize s'.tree = after at hends ⊢
  cases hends with
  | refused hf => exact .inl ⟨hf, rfl⟩
  | @outputFault spec _ _ hspec hf => exact .inr (.inl ⟨spec, hspec, hf⟩)
  | @fixturesRefused spec path _ _ hspec hpublished hpath hpresent hf =>
    obtain ⟨a, hlocate, hget, hchanged⟩ := hpublished.changed
    exact .inr (.inr ⟨spec, path, a, hspec, hpath, hpresent, hf, hlocate, hget, hchanged,
      hpublished.unchanged_iff⟩)

/-- An interface that resolves, next to fixtures of an operation that it does not have. -/
def strayFixtures : Session where
  tree := ⟨[
    (FileAddress.working.child "in.json", .file (Interface.toJson ⟨"Shelf", [], []⟩).compact),
    (FileAddress.working.child "fx.json", .file
      (Json.Value.object [("GetBook", .array [])]).compact)]⟩

/-- What a run on these files comes to. -/
def strayRun : Except Failure Specification × Session :=
  strayFixtures.attempt (run "in.json" "out" { fixtures := some "fx.json" })

theorem strayRun_eq : strayRun = (.error (.unknownOperations ["GetBook"]), strayRun.2) :=
  eq_mk_of_fst (by decide +kernel)

theorem failed_run_leaves_of_strayFixtures :
    strayRun = (.error (.unknownOperations ["GetBook"]), strayRun.2) ∧
    ∃ spec, Accepted strayFixtures.tree "in.json" {} spec ∧
      strayRun.2.tree.read (FilePath.join "out" specFile) = .ok spec.toJson.pretty ∧
      strayFixtures.tree.read (FilePath.join "out" specFile) ≠ .ok spec.toJson.pretty ∧
      ¬ ∀ b, strayRun.2.tree.get? b = strayFixtures.tree.get? b := by
  refine ⟨strayRun_eq, ?_⟩
  rcases failed_run_leaves _ _ _ _ _ _ strayRun_eq with
    ⟨hf, -⟩ | ⟨spec, -, hf⟩ | ⟨spec, path, a, hspec, -, -, -, hlocate, hget, -, hsame⟩
  · cases hf
  · exact absurd rfl hf.ne_unknownOperations
  · have habsent : strayFixtures.tree.read (FilePath.join "out" specFile) = .error .absent := by
      decide +kernel
    have hbefore : strayFixtures.tree.read (FilePath.join "out" specFile) ≠
        .ok spec.toJson.pretty := by
      rw [habsent]
      nofun
    exact ⟨spec, hspec, FileTree.read_eq_ok.mpr ⟨a, hlocate, hget⟩, hbefore, mt hsame.mp hbefore⟩

/-- Not every run that fails for another reason than its outputs leaves the files as they were. -/
theorem failed_run_may_publish :
    ¬ ∀ (s s' : Session) (input output : String) (config : Config) (f : Failure),
      s.attempt (run input output config) = (.error f, s') →
      (¬ ∃ spec, Accepted s.tree input config.resolve spec ∧
        OutputFault s.tree output config spec f s'.tree) →
      ∀ a, s'.tree.get? a = s.tree.get? a := by
  intro h
  have hsame := h strayFixtures strayRun.2 _ _ _ _ strayRun_eq
    fun ⟨_, _, hf⟩ => hf.ne_unknownOperations rfl
  have hchanged : strayRun.2.tree.get? ((FileAddress.working.child "out").child specFile) ≠
      strayFixtures.tree.get? ((FileAddress.working.child "out").child specFile) := by
    decide +kernel
  exact hchanged (hsame _)

end Generation

end Routespec
