import Routespec.Method.Declarations
import Routespec.ResolveOptions
import Routespec.Specification

/-!
# The success response of a method

A method that returns nothing but errors answers 204 and has no body; any other method answers 200
unless its success rule says otherwise.
-/

namespace Routespec

/-- The status of methods that return values. -/
def defaultStatus : UInt16 := 200

/-- The status of methods that return nothing. -/
def voidStatus : UInt16 := 204

namespace Method

/-- The notice that a status was amended. -/
def amendNotice (m : Method) : Notice :=
  ⟨m.name, s!"status {defaultStatus} rewritten to {voidStatus}: the method returns no values"⟩

/-- The status of a method that returns nothing, and whether it had to be amended. -/
def voidCode (policy : VoidSuccess) : Option UInt16 → Checked (UInt16 × Bool)
  | none => .ok (voidStatus, false)
  | some code =>
    if code = voidStatus then .ok (voidStatus, false)
    else if code = defaultStatus ∧ policy = .amend then .ok (voidStatus, true)
    else fail (.voidStatus voidStatus.toNat code.toNat)

/-- The status of a method that returns values. -/
def valueCode (rule : SuccessRule) : Checked UInt16 :=
  let code := rule.statusCode.getD defaultStatus
  if code = voidStatus ∧ rule.body.isSome then fail (.bodilessStatus voidStatus.toNat)
  else .ok code

/-- The response that a success rule leads to, and whether its status had to be amended. -/
def responseOf (m : Method) (policy : VoidSuccess) (rule : SuccessRule) :
    Checked (Response × Bool) := do
  match rule.body with
  | some name =>
    if m.results.any (·.name = name) then pure () else fail (.unknownResult name)
  | none => pure ()
  let (statusCode, amended) ←
    if m.isVoid then voidCode policy rule.statusCode
    else (valueCode rule).map (·, false)
  return ({ statusCode, mediaType := jsonMediaType, bodyField := rule.body }, amended)

/-- The success response of the method, and the notices that come of it. -/
def response (m : Method) (decl : Declarations) (options : ResolveOptions) :
    Diagnosed (Response × List Notice) :=
  let rule := decl.success.getD ⟨{}, ""⟩
  (Checked.at m.name rule.raw (m.responseOf options.voidSuccess rule.value)).map
    fun (response, amended) => (response, if amended then [m.amendNotice] else [])

end Method

end Routespec
