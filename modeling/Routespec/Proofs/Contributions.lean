import Routespec.Proofs.Citations
import Routespec.Proofs.OperationNames

/-!
# What each method contributes

Once the directives of an interface are accepted, its resolution puts together what its methods
contribute, in order. A contribution depends on the method, the aliases and the options alone, and
is one of three: nothing, where the comment of the method has no HTTP directive; one diagnostic,
where the method has a fault; or one operation for each of its `op` directives, with the notices.
-/

namespace Routespec

/-- What a method adds to the resolution of its interface. -/
structure Contribution where
  operations : List Operation
  errors : List Diagnostic
  notices : List Notice
  deriving DecidableEq

/-- The resolution made of the properties of a document and of contributions, in order. -/
def Resolution.gather (about : SpecMeta) (cs : List Contribution) : Resolution where
  spec := { about, operations := cs.flatMap (·.operations) }
  errors := cs.flatMap (·.errors)
  notices := cs.flatMap (·.notices)

/-- A route's method and pattern are the two words of the text it is read from. -/
theorem Route.words_of_read {args : String} {route : Route} (h : Route.read args = .ok route) :
    Text.words args.toList = [route.method.token.toList, route.pattern.toList] := by
  unfold Route.read at h
  split at h
  · next token pattern hwords =>
    split at h
    · next method hmethod =>
      obtain ⟨vars, -, rfl⟩ := map_eq_ok.mp h
      have htoken : method.token = String.ofList token := by
        simpa using List.find?_some hmethod
      rw [hwords, htoken, String.toList_ofList, String.toList_ofList]
    · exact absurd h fail_ne_ok
  · exact absurd h fail_ne_ok

namespace Method

variable {m : Method} {aliases : AliasTable} {options : ResolveOptions} {r : MethodResolution}

/-- What the method contributes, whatever other methods there are. -/
def contribution (m : Method) (aliases : AliasTable) (options : ResolveOptions) : Contribution :=
  match m.resolve aliases options with
  | .ok r => ⟨r.operations, [], r.notices⟩
  | .error d => ⟨[], [d], []⟩

/-- Every diagnostic of a method carries its name. -/
theorem owner_of_resolve {d : Diagnostic} (h : m.resolve aliases options = .error d) :
    d.owner = m.name := by
  have hown : StopsWith (fun d => d.owner = m.name) (m.resolve aliases options) :=
    stopsWith_resolve (fun _ _ _ => rfl) fun _ _ => rfl
  exact hown d h

/-- The operations follow the `op` directives: each has the HTTP method and the pattern that its
directive names, no two have both in common, and they are named after the method, with their numbers
behind if there are several. -/
structure Follow (m : Method) (aliases : AliasTable) (ops : List Directive)
    (operations : List Operation) : Prop where
  served : List.Forall₂ (fun d o => ∃ args, aliases.expand d.args = .ok args ∧
    Text.words args.toList = [o.httpMethod.token.toList, o.pattern.toList]) ops operations
  distinct : (operations.map fun o => (o.httpMethod, o.pattern)).Nodup
  named : operations.map (·.name) =
    if ops.length = 1 then [m.name]
    else (List.range ops.length).map fun k => m.name ++ toString (k + 1)

theorem map_nameSuffixes (count : Nat) : (nameSuffixes count).map (m.name ++ ·) =
    if count = 1 then [m.name] else (List.range count).map fun k => m.name ++ toString (k + 1) := by
  unfold nameSuffixes
  split
  · next hcount =>
    rw [if_neg (by omega), List.map_map]
    rfl
  · next hcount =>
    have hcases : count = 0 ∨ count = 1 := by omega
    rcases hcases with rfl | rfl <;> simp

/-- A method that resolves has one operation for each of its `op` directives. -/
theorem follow_of_resolve (h : m.resolve aliases options = .ok r) :
    ∃ block, CommentBlock.read m.name m.doc = .ok block ∧
      m.Follow aliases (block.of .op) r.operations := by
  obtain ⟨block, hblock, ⟨hnone, rfl⟩ | ⟨-, -, ds, hds, hresolved⟩⟩ := resolve_eq_ok.mp h
  · refine ⟨block, hblock, ?_⟩
    rw [CommentBlock.of_eq_nil .op rfl hnone]
    exact ⟨.nil, .nil, rfl⟩
  · obtain ⟨decl, plan, success, hread, -, -, -, hserved⟩ := resolveDirectives_eq_ok.mp hresolved
    obtain ⟨hdeclared, hdistinct, -⟩ := Declarations.routesOf_eq_ok.mp
      (Declarations.read_eq_ok.mp hread).1
    have hserves := serves_of_operations hserved
    -- from each directive to the route it declares, and from there to its operation
    have hread : List.Forall₂ (fun d o => Text.words d.args.toList =
        [o.httpMethod.token.toList, o.pattern.toList]) (Declarations.select .op ds)
        r.operations := by
      refine forall₂_trans (fun d route o hd ho => ?_) hdeclared hserves
      rw [Route.words_of_read hd.1, ho.httpMethod, ho.pattern]
    have hfollow : List.Forall₂ (fun d o => ∃ args, aliases.expand d.args = .ok args ∧
        Text.words args.toList = [o.httpMethod.token.toList, o.pattern.toList])
        (block.of .op) r.operations := by
      refine forall₂_trans (fun d d' o hd ho => ?_) (expandDirectives_select .op rfl hds) hread
      obtain ⟨args, hargs, rfl⟩ := hd
      exact ⟨args, hargs, ho⟩
    have hkeys : r.operations.map (fun o => (o.httpMethod, o.pattern)) =
        decl.routes.map Declarations.routeKey := by
      rw [eq_comm, ← List.forall₂_eq_eq_eq, List.forall₂_map_left_iff, List.forall₂_map_right_iff]
      refine hserves.imp fun route o ho => ?_
      rw [ho.httpMethod, ho.pattern]
      rfl
    refine ⟨block, hblock, hfollow, hkeys ▸ hdistinct, ?_⟩
    rw [names_of_resolve h, hfollow.length_eq, map_nameSuffixes]

/-- The contribution is accounted for: it is empty for a method without HTTP directives, one
diagnostic of its name for a method with a fault, and otherwise what the method resolves to, where
the operations follow the `op` directives. -/
structure Accounts (m : Method) (aliases : AliasTable) (options : ResolveOptions)
    (c : Contribution) : Prop where
  skipped : ∀ block, CommentBlock.read m.name m.doc = .ok block → block.hasHttp = false →
    c = ⟨[], [], []⟩
  failed : ∀ d, m.resolve aliases options = .error d → c = ⟨[], [d], []⟩ ∧ d.owner = m.name
  resolved : ∀ r, m.resolve aliases options = .ok r → c = ⟨r.operations, [], r.notices⟩ ∧
    ∃ block, CommentBlock.read m.name m.doc = .ok block ∧
      m.Follow aliases (block.of .op) r.operations

theorem contribution_of_ok (h : m.resolve aliases options = .ok r) :
    m.contribution aliases options = ⟨r.operations, [], r.notices⟩ := by
  rw [contribution, h]

theorem contribution_of_error {d : Diagnostic} (h : m.resolve aliases options = .error d) :
    m.contribution aliases options = ⟨[], [d], []⟩ := by
  rw [contribution, h]

theorem accounts_contribution (m : Method) (aliases : AliasTable) (options : ResolveOptions) :
    m.Accounts aliases options (m.contribution aliases options) where
  skipped block hblock hnone :=
    contribution_of_ok (resolve_eq_ok.mpr ⟨block, hblock, .inl ⟨hnone, rfl⟩⟩)
  failed _ h := ⟨contribution_of_error h, owner_of_resolve h⟩
  resolved _ h := ⟨contribution_of_ok h, follow_of_resolve h⟩

end Method

namespace Interface

variable {i : Interface} {options : ResolveOptions} {p : Preamble}

/-- An interface has a fault exactly if its own directives have. -/
theorem resolve_eq_error {d : Diagnostic} :
    i.resolve options = .error d ↔ i.preamble = .error d := by
  unfold resolve
  cases i.preamble <;> simp [bind, Except.bind, pure, Except.pure]

/-- Whatever methods stand below accepted directives, their contributions are put together. -/
theorem resolve_gathers (hp : i.preamble = .ok p) (ms : List Method) :
    resolve { i with methods := ms } options =
      .ok (.gather p.about (ms.map fun m => m.contribution p.aliases options)) := by
  have hpreamble : preamble { i with methods := ms } = .ok p := hp
  rw [resolve, hpreamble]
  refine congrArg Except.ok ?_
  rw [Resolution.gather, Resolution.mk.injEq, Specification.mk.injEq]
  simp only [List.filterMap_map, List.flatMap_map, true_and]
  -- the three lists go through the methods in the same way
  induction ms with
  | nil => exact ⟨rfl, rfl, rfl⟩
  | cons m ms ih =>
    obtain ⟨hoperations, herrors, hnotices⟩ := ih hp
    cases hm : m.resolve p.aliases options with
    | ok r =>
      rw [List.flatMap_cons, List.flatMap_cons, List.flatMap_cons, Method.contribution_of_ok hm,
        ← hoperations, ← herrors, ← hnotices]
      simp [hm]
    | error d =>
      rw [List.flatMap_cons, List.flatMap_cons, List.flatMap_cons, Method.contribution_of_error hm,
        ← hoperations, ← herrors, ← hnotices]
      simp [hm]

/-- The resolution of an interface consists of what each method contributes alone, in order, and
replacing a method changes nothing else. -/
theorem methods_isolated (hp : i.preamble = .ok p) :
    let contribution (m : Method) := m.contribution p.aliases options
    i.resolve options = .ok (.gather p.about (i.methods.map contribution)) ∧
    (∀ m, resolve { i with methods := [m] } options = .ok (.gather p.about [contribution m])) ∧
    (∀ m : Method, m.Accounts p.aliases options (contribution m)) ∧
    ∀ before m after m', i.methods = before ++ m :: after →
      i.resolve options = .ok (.gather p.about
        (before.map contribution ++ contribution m :: after.map contribution)) ∧
      resolve { i with methods := before ++ m' :: after } options = .ok (.gather p.about
        (before.map contribution ++ contribution m' :: after.map contribution)) := by
  intro contribution
  refine ⟨resolve_gathers hp i.methods, fun m => resolve_gathers hp [m],
    fun m => Method.accounts_contribution m p.aliases options, ?_⟩
  intro before m after m' hmethods
  have hgather (m : Method) : (before ++ m :: after).map contribution =
      before.map contribution ++ contribution m :: after.map contribution := by simp
  refine ⟨?_, ?_⟩
  · rw [← hgather, ← hmethods]
    exact resolve_gathers hp i.methods
  · rw [← hgather]
    exact resolve_gathers hp _

/-- A method with two patterns, one with a fault, one without directives and one with an amended
status. -/
def taskBoard : Interface where
  name := "TaskBoard"
  doc := ["TaskBoard keeps tasks.", "//kun:alias auth=`in=header name=Authorization`",
    "//kun:oas title=Tasks"]
  methods := [
    { name := "GetTask", args := [⟨"id", "string", .scalar⟩, ⟨"token", "string", .scalar⟩]
      returns := [⟨"text", "string", .scalar⟩]
      doc := ["//kun:op GET /tasks/{id}", "//kun:param token $auth", "//kun:op HEAD /tasks/{id}"] },
    { name := "AddTask", args := [], returns := []
      doc := ["//kun:op POST /tasks", "//kun:param text"] },
    { name := "Ping", args := [], returns := [], doc := ["Ping does nothing.", "//kun:grpc ping"] },
    { name := "DropTask", args := [⟨"id", "string", .scalar⟩], returns := []
      doc := ["//kun:success statusCode=200", "//kun:op DELETE /tasks/{id}"] }]

theorem methods_isolated_of_taskBoard :
    let options : ResolveOptions := { voidSuccess := .amend }
    ∃ p, taskBoard.preamble = .ok p ∧
      let contribution (m : Method) := m.contribution p.aliases options
      taskBoard.methods.map (fun m => ((contribution m).operations.map (·.name),
        (contribution m).errors.map (·.owner), (contribution m).notices.map (·.method))) =
        [(["GetTask1", "GetTask2"], [], []), ([], ["AddTask"], []), ([], [], []),
          (["DropTask"], [], ["DropTask"])] ∧
      taskBoard.resolve options = .ok (.gather p.about (taskBoard.methods.map contribution)) ∧
      (∀ m, resolve { taskBoard with methods := [m] } options =
        .ok (.gather p.about [contribution m])) ∧
      (∀ m : Method, m.Accounts p.aliases options (contribution m)) ∧
      ∀ before m after m', taskBoard.methods = before ++ m :: after →
        taskBoard.resolve options = .ok (.gather p.about
          (before.map contribution ++ contribution m :: after.map contribution)) ∧
        resolve { taskBoard with methods := before ++ m' :: after } options =
          .ok (.gather p.about
            (before.map contribution ++ contribution m' :: after.map contribution)) := by
  intro options
  obtain ⟨p, hp, hcontributions⟩ : ∃ p, taskBoard.preamble = .ok p ∧
      taskBoard.methods.map (fun m => ((m.contribution p.aliases options).operations.map (·.name),
        (m.contribution p.aliases options).errors.map (·.owner),
        (m.contribution p.aliases options).notices.map (·.method))) =
        [(["GetTask1", "GetTask2"], [], []), ([], ["AddTask"], []), ([], [], []),
          (["DropTask"], [], ["DropTask"])] :=
    exists_ok_of_map (by decide +kernel)
  exact ⟨p, hp, hcontributions, methods_isolated hp⟩

end Interface

end Routespec
