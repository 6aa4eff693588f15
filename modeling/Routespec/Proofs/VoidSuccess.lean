import Routespec.Proofs.Contributions

/-!
# The policy for methods that return nothing

A method that returns nothing answers 204. Whether one that asks for 200 instead is refused or
amended is a matter of policy, and nothing else is: a method that is resolved without amendment is
resolved under both policies, to the same, and a method with any other fault has that fault under
both. An amended method may still meet another fault, which refusal had hidden.
-/

namespace Routespec

/-- The fault of a method that returns nothing and asks for the status 200. -/
def defaultRefusal : Fault := (Cause.voidStatus voidStatus.toNat defaultStatus.toNat).fault

/-- The diagnostic is that a method that returns nothing asks for the status 200. -/
def Diagnostic.RefusesDefault (d : Diagnostic) : Prop := d.fault = defaultRefusal

theorem Diagnostic.not_refusesDefault_of_offResponse {d : Diagnostic} (h : d.fault.OffResponse) :
    ¬ d.RefusesDefault := by
  intro hrefuses
  rw [hrefuses] at h
  cases h

namespace Method

variable {m : Method} {naming : Naming}

/-- How the outcome of a method changes if its status is amended where it would be refused. -/
structure PolicyChange (m : Method) (refused amended : Diagnosed MethodResolution) : Prop where
  succeeds : ∀ r, refused = .ok r → amended = .ok r ∧ r.notices = []
  fails : ∀ d, refused = .error d → ¬ d.RefusesDefault → amended = .error d
  refuses : ∀ d, refused = .error d → d.RefusesDefault → m.isVoid = true ∧
    ((∃ d', amended = .error d' ∧ ¬ d'.RefusesDefault) ∨
      ∃ r notice, amended = .ok r ∧ (∀ o ∈ r.operations, o.success.statusCode = voidStatus) ∧
        r.notices = [notice] ∧ notice.method = m.name)

/-- An outcome that is no refusal and has no notices is the same under both policies. -/
theorem PolicyChange.same {x : Diagnosed MethodResolution}
    (hstops : StopsWith (¬ Diagnostic.RefusesDefault ·) x)
    (hsilent : ∀ r, x = .ok r → r.notices = []) : m.PolicyChange x x where
  succeeds r h := ⟨h, hsilent r h⟩
  fails _ h _ := h
  refuses d h hrefuses := absurd hrefuses (hstops d h)

/-- What comes before the response is the same under both policies. -/
theorem PolicyChange.bind {α : Type} {x : Diagnosed α} {f g : α → Diagnosed MethodResolution}
    (hstops : StopsWith (¬ Diagnostic.RefusesDefault ·) x)
    (h : ∀ a, x = .ok a → m.PolicyChange (f a) (g a)) : m.PolicyChange (x >>= f) (x >>= g) := by
  cases hx : x with
  | ok a => exact h a hx
  | error d =>
    refine .same ?_ fun r hr => ?_
    · exact stopsWith_error.mpr (hstops d hx)
    · cases hr

/-- What is computed is the same under both policies: it is neither refused nor amended. -/
structure Unaffected {α : Type} (refused amended : Checked (α × Bool)) : Prop where
  same : amended = refused
  silent : ∀ c, refused = .ok c → c.2 = false
  accepted : StopsWith (· ≠ defaultRefusal) refused

theorem unaffected_fail {α : Type} {c : Cause} (h : c.fault ≠ defaultRefusal) :
    Unaffected (fail c : Checked (α × Bool)) (fail c) where
  same := rfl
  silent _ hc := absurd hc fail_ne_ok
  accepted := stopsWith_fail.mpr h

theorem unaffected_ok {α : Type} (a : α) :
    Unaffected (.ok (a, false) : Checked (α × Bool)) (.ok (a, false)) where
  same := rfl
  silent _ hc := by rw [← Except.ok.inj hc]
  accepted := stopsWith_ok

/-- The policy does not matter for a status that a method without return values asks for unless that
is 200. -/
theorem voidCode_unaffected {code : Option UInt16} (hne : code ≠ some defaultStatus) :
    Unaffected (voidCode .reject code) (voidCode .amend code) := by
  cases code with
  | none => exact unaffected_ok voidStatus
  | some code =>
    have hcode : code ≠ defaultStatus := fun h => hne (congrArg some h)
    by_cases hvoid : code = voidStatus
    · simpa [voidCode, hvoid] using unaffected_ok voidStatus
    · have hfails (policy : VoidSuccess) :
          voidCode policy (some code) = fail (.voidStatus voidStatus.toNat code.toNat) := by
        simp [voidCode, hvoid, hcode]
      rw [hfails, hfails]
      refine unaffected_fail fun heq => hcode ?_
      have hnat : code.toNat = defaultStatus.toNat := by
        injection heq with hcause
        injection hcause
      exact UInt16.toNat_inj.mp hnat

/-- Stop unless the body of the rule is a return value of the method. -/
def checkResult (m : Method) (rule : SuccessRule) : Checked Unit :=
  match rule.body with
  | some name => if m.results.any (·.name = name) then .ok () else fail (.unknownResult name)
  | none => .ok ()

/-- The status that a rule leads to, and whether it had to be amended. -/
def statusOf (m : Method) (policy : VoidSuccess) (rule : SuccessRule) : Checked (UInt16 × Bool) :=
  if m.isVoid then voidCode policy rule.statusCode else (valueCode rule).map (·, false)

/-- The body is looked at before the status. -/
theorem responseOf_eq (m : Method) (policy : VoidSuccess) (rule : SuccessRule) :
    m.responseOf policy rule = m.checkResult rule >>= fun _ =>
      (m.statusOf policy rule).map fun code =>
        (⟨code.1, jsonMediaType, rule.body⟩, code.2) := by
  have hstatus (finish : UInt16 × Bool → Response × Bool) :
      (if m.isVoid then do return finish (← voidCode policy rule.statusCode)
        else do return finish (← (valueCode rule).map (·, false))) =
      (m.statusOf policy rule).map finish := by
    unfold statusOf
    split
    · cases voidCode policy rule.statusCode <;> rfl
    · cases valueCode rule <;> rfl
  unfold responseOf checkResult
  cases rule.body with
  | none => exact hstatus _
  | some name =>
    dsimp only
    split
    · exact hstatus _
    · rfl

/-- The policy does not matter for the status unless a method that returns nothing asks for 200. -/
theorem statusOf_cases (m : Method) (rule : SuccessRule) :
    Unaffected (m.statusOf .reject rule) (m.statusOf .amend rule) ∨
      m.isVoid = true ∧ rule.statusCode = some defaultStatus := by
  unfold statusOf
  by_cases hvoid : m.isVoid = true
  · by_cases hdefault : rule.statusCode = some defaultStatus
    · exact .inr ⟨hvoid, hdefault⟩
    · left
      rw [if_pos hvoid, if_pos hvoid]
      exact voidCode_unaffected hdefault
  · left
    rw [if_neg hvoid, if_neg hvoid, valueCode]
    split
    · exact unaffected_fail (by simp [defaultRefusal, Cause.fault])
    · exact unaffected_ok _

/-- The policy does not matter for a response, but for that of a method that returns nothing and
asks for 200. -/
theorem responseOf_cases (m : Method) (rule : SuccessRule) :
    Unaffected (m.responseOf .reject rule) (m.responseOf .amend rule) ∨
    (m.isVoid = true ∧
      m.responseOf .reject rule = fail (.voidStatus voidStatus.toNat defaultStatus.toNat) ∧
      m.responseOf .amend rule = .ok (⟨voidStatus, jsonMediaType, none⟩, true)) := by
  rw [responseOf_eq, responseOf_eq]
  have hbody : m.checkResult rule = .ok () ∨
      ∃ name, rule.body = some name ∧ m.checkResult rule = fail (.unknownResult name) := by
    unfold checkResult
    cases rule.body with
    | none => exact .inl rfl
    | some name =>
      dsimp only
      split
      · exact .inl rfl
      · exact .inr ⟨name, rfl, rfl⟩
  rcases hbody with hpasses | ⟨name, -, hfails⟩
  · rw [hpasses]
    rcases m.statusOf_cases rule with hstatus | ⟨hvoid, hdefault⟩
    · left
      rw [hstatus.same]
      refine ⟨rfl, fun c hc => ?_, stopsWith_map.mpr hstatus.accepted⟩
      obtain ⟨code, hcode, rfl⟩ := map_eq_ok.mp hc
      exact hstatus.silent code hcode
    · have hnone : rule.body = none := by
        have hresults : m.results = [] := List.isEmpty_iff.mp hvoid
        cases hrule : rule.body with
        | none => rfl
        | some name => simp [checkResult, hrule, hresults] at hpasses
      right
      rw [statusOf, statusOf, if_pos hvoid, if_pos hvoid, hdefault, hnone]
      exact ⟨hvoid, rfl, rfl⟩
  · left
    rw [hfails]
    exact unaffected_fail (by simp [defaultRefusal, Cause.fault])

variable {decl : Declarations}

/-- A refused response is one that is amended, with a notice, under the other policy; every other
one is the same under both. -/
theorem response_cases (m : Method) (decl : Declarations) (naming : Naming) :
    (m.response decl ⟨naming, .reject⟩ = m.response decl ⟨naming, .amend⟩ ∧
      (∀ c, m.response decl ⟨naming, .reject⟩ = .ok c → c.2 = []) ∧
      StopsWith (¬ Diagnostic.RefusesDefault ·) (m.response decl ⟨naming, .reject⟩)) ∨
    (m.isVoid = true ∧
      (∃ d, m.response decl ⟨naming, .reject⟩ = .error d ∧ d.RefusesDefault) ∧
      m.response decl ⟨naming, .amend⟩ =
        .ok (⟨voidStatus, jsonMediaType, none⟩, [m.amendNotice])) := by
  unfold response
  dsimp only
  rcases m.responseOf_cases (decl.success.getD ⟨{}, ""⟩).value with
    hresponse | ⟨hvoid, hrefused, hamended⟩
  · left
    rw [hresponse.same]
    refine ⟨rfl, fun c hc => ?_, stopsWith_map.mpr (stopsWith_at.mpr hresponse.accepted)⟩
    obtain ⟨code, hcode, rfl⟩ := map_eq_ok.mp hc
    rw [hresponse.silent code (at_eq_ok.mp hcode)]
    rfl
  · right
    rw [hrefused, hamended]
    exact ⟨hvoid, ⟨_, rfl, rfl⟩, rfl⟩

/-- Reading, planning and serving a method do not depend on the policy; its response does. -/
theorem policyChange_resolveDirectives (m : Method) (naming : Naming) (description : String)
    (ds : List Directive) :
    m.PolicyChange (m.resolveDirectives ⟨naming, .reject⟩ description ds)
      (m.resolveDirectives ⟨naming, .amend⟩ description ds) := by
  have hpermits (raw : String) : Permits (¬ Diagnostic.RefusesDefault ·) m.name raw :=
    fun f hf => Diagnostic.not_refusesDefault_of_offResponse hf
  have hread : StopsWith (¬ Diagnostic.RefusesDefault ·) (Declarations.read m ds) :=
    Declarations.stopsWith_read (fun d _ => hpermits d.raw) fun _ => hpermits "" _ rfl
  refine .bind hread fun decl hdecl => ?_
  have hdecl : decl.Permitted (¬ Diagnostic.RefusesDefault ·) m.name :=
    Declarations.permitted_of_read (fun d _ => hpermits d.raw) hdecl
  refine .bind (Declarations.stopsWith_checkWholeBody hdecl) fun _ _ => ?_
  have hplan : StopsWith (¬ Diagnostic.RefusesDefault ·) (m.plan decl ⟨naming, .reject⟩) :=
    stopsWith_plan hdecl fun f hf _ => hpermits "" f hf
  refine .bind hplan fun plan _ => ?_
  have hserved (success : Response) : StopsWith (¬ Diagnostic.RefusesDefault ·)
      (decl.routes.zipIdx.mapM (m.operation decl plan success description)) :=
    stopsWith_operations hdecl
  rcases m.response_cases decl naming with
    ⟨hsame, hsilent, hstops⟩ | ⟨hvoid, ⟨d, hrefused, hd⟩, hamended⟩
  · rw [← hsame]
    refine .bind hstops fun (success, notices) hresponse => ?_
    obtain rfl : notices = [] := hsilent _ hresponse
    refine .same ((hserved success).bind fun _ => stopsWith_pure) fun r hr => ?_
    obtain ⟨operations, -, hr⟩ := bind_eq_ok.mp hr
    rw [← pure_eq_ok.mp hr]
  · rw [hrefused, hamended]
    refine ⟨fun r hr => ?_, fun d' hd' hother => ?_, fun d' hd' _ => ⟨hvoid, ?_⟩⟩
    · cases hr
    · cases hd'
      exact absurd hd hother
    · cases hops : decl.routes.zipIdx.mapM
        (m.operation decl plan ⟨voidStatus, jsonMediaType, none⟩ description) with
      | error e =>
        left
        exact ⟨e, by simp [bind, Except.bind, hops], hserved _ e hops⟩
      | ok operations =>
        right
        refine ⟨⟨operations, [m.amendNotice]⟩, m.amendNotice,
          by simp [bind, Except.bind, hops, pure, Except.pure], fun o ho => ?_, rfl, rfl⟩
        obtain ⟨route, -, hroute⟩ := forall₂_mem_right (mapM_eq_ok.mp hops) ho
        obtain ⟨request, -, rfl⟩ := map_eq_ok.mp hroute
        rfl

/-- Resolving a method under both policies. -/
theorem policyChange_resolve (m : Method) (aliases : AliasTable) (naming : Naming) :
    m.PolicyChange (m.resolve aliases ⟨naming, .reject⟩) (m.resolve aliases ⟨naming, .amend⟩) := by
  have hpermits (raw : String) : Permits (¬ Diagnostic.RefusesDefault ·) m.name raw :=
    fun f hf => Diagnostic.not_refusesDefault_of_offResponse hf
  refine .bind (CommentBlock.stopsWith_read fun _ _ _ => hpermits _) fun block _ => ?_
  split
  · exact .same stopsWith_pure fun r hr => by rw [← pure_eq_ok.mp hr]
  · have hrest : m.PolicyChange
        (do
          let ds ← m.expandDirectives aliases block
          m.resolveDirectives ⟨naming, .reject⟩ block.description ds)
        (do
          let ds ← m.expandDirectives aliases block
          m.resolveDirectives ⟨naming, .amend⟩ block.description ds) :=
      .bind (stopsWith_expandDirectives fun d _ _ => hpermits d.raw) fun ds _ =>
        m.policyChange_resolveDirectives naming block.description ds
    split
    · exact .bind (hpermits _ |>.fail rfl) fun _ _ => hrest
    · exact hrest

end Method

namespace Interface

/-- The policy decides nothing but what becomes of methods that return nothing and ask for 200. -/
theorem voidSuccess_decides_void_methods_only (i : Interface) (naming : Naming) :
    let reject : ResolveOptions := { naming, voidSuccess := .reject }
    let amend : ResolveOptions := { naming, voidSuccess := .amend }
    (∀ d, i.resolve reject = .error d ↔ i.resolve amend = .error d) ∧
    ∀ p, i.preamble = .ok p →
      i.resolve reject =
        .ok (.gather p.about (i.methods.map fun m => m.contribution p.aliases reject)) ∧
      i.resolve amend =
        .ok (.gather p.about (i.methods.map fun m => m.contribution p.aliases amend)) ∧
      ∀ m ∈ i.methods,
        m.PolicyChange (m.resolve p.aliases reject) (m.resolve p.aliases amend) := by
  intro reject amend
  refine ⟨fun d => ?_, fun p hp => ⟨?_, ?_, fun m _ => ?_⟩⟩
  · rw [resolve_eq_error, resolve_eq_error]
  · exact resolve_gathers hp i.methods
  · exact resolve_gathers hp i.methods
  · exact m.policyChange_resolve p.aliases naming

/-- A method that is amended, one that has another fault behind the refusal, and one that returns
something. -/
def inbox : Interface where
  name := "Inbox"
  doc := ["//kun:alias ok=`statusCode=200`"]
  methods := [
    { name := "Ack", args := [⟨"id", "string", .scalar⟩], returns := [⟨"err", "error", .error⟩]
      doc := ["//kun:op POST /ack/{id}", "//kun:op PUT /ack/{id}", "//kun:success $ok"] },
    { name := "Find", args := [⟨"name", "string", .scalar⟩], returns := []
      doc := ["//kun:op GET /find", "//kun:body name name=fullName", "//kun:success $ok"] },
    { name := "Read", args := [], returns := [⟨"text", "string", .scalar⟩]
      doc := ["//kun:op GET /mail", "//kun:success $ok"] }]

theorem voidSuccess_decides_void_methods_only_of_inbox :
    let reject : ResolveOptions := { naming := .snakeCase, voidSuccess := .reject }
    let amend : ResolveOptions := { naming := .snakeCase, voidSuccess := .amend }
    ∃ p, inbox.preamble = .ok p ∧
      inbox.methods.map (fun m =>
        ((m.contribution p.aliases reject).errors.map (·.fault.cause),
          (m.contribution p.aliases amend).errors.map (·.fault.cause),
          (m.contribution p.aliases amend).notices.map (·.method))) =
        [([.voidStatus 204 200], [], ["Ack"]),
          ([.voidStatus 204 200], [.nothingToManipulate .get "/find"], []), ([], [], [])] ∧
      inbox.resolve reject =
        .ok (.gather p.about (inbox.methods.map fun m => m.contribution p.aliases reject)) ∧
      inbox.resolve amend =
        .ok (.gather p.about (inbox.methods.map fun m => m.contribution p.aliases amend)) ∧
      ∀ m ∈ inbox.methods,
        m.PolicyChange (m.resolve p.aliases reject) (m.resolve p.aliases amend) := by
  intro reject amend
  obtain ⟨p, hp, houtcomes⟩ : ∃ p, inbox.preamble = .ok p ∧
      inbox.methods.map (fun m =>
        ((m.contribution p.aliases reject).errors.map (·.fault.cause),
          (m.contribution p.aliases amend).errors.map (·.fault.cause),
          (m.contribution p.aliases amend).notices.map (·.method))) =
        [([.voidStatus 204 200], [], ["Ack"]),
          ([.voidStatus 204 200], [.nothingToManipulate .get "/find"], []), ([], [], [])] :=
    exists_ok_of_map (by decide +kernel)
  exact ⟨p, hp, houtcomes, (voidSuccess_decides_void_methods_only inbox .snakeCase).2 p hp⟩

end Interface

end Routespec
