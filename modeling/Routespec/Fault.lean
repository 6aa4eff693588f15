import Routespec.Http

/-!
# Faults

Everything that can be wrong with the directives of a service. A fault is a cause together with
the places it was met in; its kind depends on the cause alone, and its text is the cause's text
behind the places, outermost first.
-/

namespace Routespec

/-- The kinds of fault that tools tell apart. -/
inductive FaultKind
  /-- Malformed directive text. -/
  | syntaxError
  /-- A name that stands for nothing. -/
  | referenceError
  /-- Two declarations that exclude each other. -/
  | conflict
  /-- A value whose shape does not fit its place. -/
  | unsupportedShape
  /-- A well-formed request that the rules forbid. -/
  | policyViolation
  deriving DecidableEq, Repr, Inhabited

namespace FaultKind

/-- The stable code of a kind. -/
def code : FaultKind → String
  | .syntaxError => "SYNTAX_ERROR"
  | .referenceError => "REFERENCE_ERROR"
  | .conflict => "CONFLICT"
  | .unsupportedShape => "UNSUPPORTED_SHAPE"
  | .policyViolation => "POLICY_VIOLATION"

/-- The words that a displayed fault starts with. -/
def label : FaultKind → String
  | .syntaxError => "syntax error"
  | .referenceError => "reference error"
  | .conflict => "conflict"
  | .unsupportedShape => "unsupported shape"
  | .policyViolation => "policy violation"

/-- Every kind. -/
def all : List FaultKind :=
  [.syntaxError, .referenceError, .conflict, .unsupportedShape, .policyViolation]

/-- The kind with the given code. -/
def ofCode? (code : String) : Option FaultKind := all.find? (·.code = code)

end FaultKind

/-- A single thing that is wrong. Shapes appear by the names they have in messages. -/
inductive Cause
  /-- The word after the directive mark is no keyword. -/
  | unknownDirective (mark word : String)
  /-- The text of an alias definition is not a name, an equals sign and quoted text. -/
  | invalidAlias (text : String)
  /-- Text that is no option, from the first such token on. -/
  | unmatchedOptions (rest : String)
  /-- Nothing stands between two commas of an option text. -/
  | emptyOptionGroup (text : String)
  /-- An option key that is not among the expected ones. -/
  | unknownOption (key : String) (expected : List String)
  /-- A truth value that is neither `true` nor `false`. -/
  | invalidBool (key value : String)
  /-- A pattern without a leading slash. -/
  | unrootedPattern (pattern : String)
  /-- A brace of a pattern without its partner. -/
  | unbalancedPattern (pattern : String)
  /-- A variable of a pattern without a name. -/
  | emptyPathVariable (pattern : String)
  /-- An operation that is not a method and a pattern. -/
  | malformedOperation (text : String)
  /-- A token that is no HTTP method. -/
  | unknownHttpMethod (token : String)
  /-- A `param` directive without text. -/
  | paramWithoutArgument
  /-- A `body` directive without text. -/
  | bodyWithoutArgument
  /-- A location in a body manipulation. -/
  | locatedManipulation (argument : String)
  /-- A body manipulation without options. -/
  | emptyManipulation (argument : String)
  /-- A status code that is no number from 100 to 599. -/
  | invalidStatusCode (text : String)
  /-- A success body that is no identifier. -/
  | invalidSuccessBody (text : String)
  /-- Nothing stands between two semicolons. -/
  | emptyBinding
  /-- An argument name that is no identifier. -/
  | invalidArgumentName (name : String)
  /-- An alias on a method. -/
  | misplacedAlias
  /-- A property of the document on a method. -/
  | interfaceOnlyOption (key : String)
  /-- A method's directive on the interface. -/
  | methodOnlyDirective (keyword : String)
  /-- A blank binding without parameters. -/
  | emptyBlankBinding (name : String)
  /-- A parameter of a blank binding without a name. -/
  | unnamedBlankParameter (name : String)
  /-- A reference to an alias that is not defined. -/
  | undefinedAlias (name : String)
  /-- A path variable that no argument or field feeds. -/
  | unboundPathVariable (var : String)
  /-- A name that no argument has. -/
  | unknownArgument (name : String)
  /-- A whole body that no argument has the name of. -/
  | unknownBodyArgument (name : String)
  /-- A path parameter that no pattern declares. -/
  | foreignPathParameter (name : String)
  /-- A success body that no return value has the name of. -/
  | unknownResult (name : String)
  /-- A variable that a pattern declares twice. -/
  | repeatedPathVariable (var pattern : String)
  /-- An option that is given twice. -/
  | duplicateOption (key : String)
  /-- Two operations with one method and pattern. -/
  | duplicateOperation (method : HttpMethod) (pattern : String)
  /-- A directive that may be given once only. -/
  | duplicateDirective (keyword : String)
  /-- An argument in two `param` segments. -/
  | repeatedArgument (name : String)
  /-- An argument that is the whole body and in a `param` segment. -/
  | bodyArgumentBound (name : String)
  /-- A path variable whose argument has a location of its own. -/
  | argumentLocated (var argument : String) (location : Location)
  /-- A path variable whose field has a location of its own. -/
  | fieldLocated (var field argument : String) (location : Location)
  /-- Body manipulations on an operation without a synthesized body. -/
  | nothingToManipulate (method : HttpMethod) (pattern : String)
  /-- A manipulated argument without a parameter in the body. -/
  | manipulatedElsewhere (argument : String)
  /-- Two parameters of one location and name. -/
  | duplicateParameter (location : Location) (name argument : String)
  /-- A shape at a location that cannot carry it. -/
  | unsupportedLocation (shape : String) (location : Location)
  /-- An argument that only a body can carry. -/
  | bodyOnlyArgument (argument ty shape : String)
  /-- An argument that is never bound. -/
  | unbindableArgument (argument shape : String)
  /-- Several option groups for a composite argument. -/
  | aggregateComposite (argument : String)
  /-- A name or type for a composite argument. -/
  | namedComposite (argument : String)
  /-- Several option groups for an argument that is not scalar. -/
  | aggregateArgument (argument shape : String)
  /-- A field that has to be annotated to be bound. -/
  | unsupportedField (argument field ty shape : String)
  /-- A manipulated argument with several parameters in the body. -/
  | ambiguousManipulation (argument : String) (count : Nat)
  /-- A name that the connection does not provide. -/
  | unknownRequestData (argument : String) (allowed : List String) (got : String)
  /-- A location that options cannot ask for. -/
  | invalidLocation (text : String) (allowed : List String)
  /-- HTTP directives without an operation. -/
  | noOperation (mark : String)
  /-- A whole body on a method that carries none. -/
  | bodyNotCarried (method : HttpMethod) (pattern : String)
  /-- A status other than the one of methods that return nothing. -/
  | voidStatus (expected got : Nat)
  /-- A body in a response that has none. -/
  | bodilessStatus (status : Nat)
  /-- Anything else, as reported. -/
  | reported (kind : FaultKind) (message : String)
  deriving DecidableEq, Inhabited

namespace Cause

/-- The kind of a cause. -/
def kind : Cause → FaultKind
  | .unknownDirective .. | .invalidAlias .. | .unmatchedOptions .. | .emptyOptionGroup ..
  | .unknownOption .. | .invalidBool .. | .unrootedPattern .. | .unbalancedPattern ..
  | .emptyPathVariable .. | .malformedOperation .. | .unknownHttpMethod ..
  | .paramWithoutArgument | .bodyWithoutArgument | .locatedManipulation ..
  | .emptyManipulation .. | .invalidStatusCode .. | .invalidSuccessBody .. | .emptyBinding
  | .invalidArgumentName .. | .misplacedAlias | .interfaceOnlyOption .. | .methodOnlyDirective ..
  | .emptyBlankBinding .. | .unnamedBlankParameter .. => .syntaxError
  | .undefinedAlias .. | .unboundPathVariable .. | .unknownArgument .. | .unknownBodyArgument ..
  | .foreignPathParameter .. | .unknownResult .. => .referenceError
  | .repeatedPathVariable .. | .duplicateOption .. | .duplicateOperation ..
  | .duplicateDirective .. | .repeatedArgument .. | .bodyArgumentBound .. | .argumentLocated ..
  | .fieldLocated .. | .nothingToManipulate .. | .manipulatedElsewhere ..
  | .duplicateParameter .. => .conflict
  | .unsupportedLocation .. | .bodyOnlyArgument .. | .unbindableArgument ..
  | .aggregateComposite .. | .namedComposite .. | .aggregateArgument .. | .unsupportedField ..
  | .ambiguousManipulation .. => .unsupportedShape
  | .unknownRequestData .. | .invalidLocation .. | .noOperation .. | .bodyNotCarried ..
  | .voidStatus .. | .bodilessStatus .. => .policyViolation
  | .reported kind _ => kind

/-- The text of a cause. -/
def message : Cause → String
  | .unknownDirective mark word => s!"unknown directive `{mark}{word}`"
  | .invalidAlias text => s!"invalid alias `{text}`, expected name=`text`"
  | .unmatchedOptions rest => s!"unmatched option text `{rest}`"
  | .emptyOptionGroup text => s!"empty option group in `{text}`"
  | .unknownOption key expected =>
    s!"unknown option `{key}`, expected one of: " ++ ", ".intercalate expected
  | .invalidBool key value => s!"option `{key}` expects true or false, got `{value}`"
  | .unrootedPattern pattern => s!"pattern `{pattern}` must start with `/`"
  | .unbalancedPattern pattern => s!"unbalanced braces in pattern `{pattern}`"
  | .emptyPathVariable pattern => s!"empty path variable in `{pattern}`"
  | .malformedOperation text => s!"expected `<METHOD> <PATTERN>`, got `{text}`"
  | .unknownHttpMethod token => s!"unknown HTTP method `{token}`"
  | .paramWithoutArgument => "param requires an argument name"
  | .bodyWithoutArgument => "body requires an argument name or `-`"
  | .locatedManipulation argument =>
    s!"body field `{argument}`: `in` is not allowed in a body manipulation"
  | .emptyManipulation argument => s!"body field `{argument}`: manipulation sets nothing"
  | .invalidStatusCode text => s!"invalid status code `{text}`"
  | .invalidSuccessBody text => s!"invalid success body `{text}`"
  | .emptyBinding => "empty binding"
  | .invalidArgumentName name => s!"invalid argument name `{name}`"
  | .misplacedAlias => "aliases can only be declared on the interface"
  | .interfaceOnlyOption key => s!"`{key}` can only be set on the interface"
  | .methodOnlyDirective keyword => s!"`{keyword}` can only be used on methods"
  | .emptyBlankBinding name => s!"blank binding `{name}` requires at least one parameter"
  | .unnamedBlankParameter name => s!"blank binding `{name}` requires name="
  | .undefinedAlias name => s!"undefined alias `${name}`"
  | .unboundPathVariable var => s!"cannot bind path parameter `{var}`: no such argument"
  | .unknownArgument name => s!"argument `{name}` not declared in method"
  | .unknownBodyArgument name => s!"body argument `{name}` not declared in method"
  | .foreignPathParameter name =>
    s!"path parameter `{name}` does not appear in any operation pattern"
  | .unknownResult name => s!"success body `{name}` is not a return value of the method"
  | .repeatedPathVariable var pattern =>
    s!"path variable `{var}` declared twice in `{pattern}`"
  | .duplicateOption key => s!"duplicate option `{key}`"
  | .duplicateOperation method pattern =>
    "duplicate operation `" ++ method.token ++ s!" {pattern}`"
  | .duplicateDirective keyword => s!"duplicate `{keyword}` directive"
  | .repeatedArgument name => s!"argument `{name}` is bound by more than one param directive"
  | .bodyArgumentBound name =>
    s!"argument `{name}` is the request body and also bound by a param directive"
  | .argumentLocated var argument location =>
    s!"cannot bind path parameter `{var}`: argument `{argument}` is already bound to "
      ++ location.word
  | .fieldLocated var field argument location =>
    s!"cannot bind path parameter `{var}`: field `{field}` of argument `{argument}` is already "
      ++ "bound to " ++ location.word
  | .nothingToManipulate method pattern =>
    method.token ++ s!" {pattern} has no synthesized body to manipulate"
  | .manipulatedElsewhere argument =>
    s!"cannot manipulate `{argument}`: not located in the request body"
  | .duplicateParameter location name argument =>
    "duplicate " ++ location.word ++ s!" parameter `{name}` (argument `{argument}`)"
  | .unsupportedLocation shape location => s!"a {shape} cannot be bound to " ++ location.word
  | .bodyOnlyArgument argument ty shape =>
    s!"argument `{argument}` of type `{ty}` is a {shape}; it can only travel in a request body"
  | .unbindableArgument argument shape =>
    s!"argument `{argument}` is a {shape} value and cannot be bound"
  | .aggregateComposite argument =>
    s!"argument `{argument}` is composite; only scalar arguments can aggregate several parameters"
  | .namedComposite argument =>
    s!"argument `{argument}` is composite; name and type apply to its fields, annotate them "
      ++ "instead"
  | .aggregateArgument argument shape =>
    s!"argument `{argument}` is a {shape}; only scalar arguments can aggregate several parameters"
  | .unsupportedField argument field ty shape =>
    s!"argument `{argument}` field `{field}` has type `{ty}` ({shape}), which cannot be bound "
      ++ "automatically"
  | .ambiguousManipulation argument count =>
    s!"cannot manipulate `{argument}`: it contributes {count} body fields"
  | .unknownRequestData argument allowed got =>
    s!"argument `{argument}`: in=request requires name to be one of: "
      ++ ", ".intercalate allowed ++ s!" (got `{got}`)"
  | .invalidLocation text allowed =>
    s!"invalid location `{text}`, expected one of: " ++ ", ".intercalate allowed
  | .noOperation mark => s!"HTTP directives require at least one `{mark}op` directive"
  | .bodyNotCarried method pattern => method.token ++ s!" {pattern} cannot carry a request body"
  | .voidStatus expected got =>
    s!"the method returns no values; success status must be {expected}, got {got}"
  | .bodilessStatus status => s!"a {status} response cannot carry a body"
  | .reported _ message => message

end Cause

/-- Where in a directive or a signature a fault was met. -/
inductive Place
  | argument (name : String)
  | field (owner name : String)
  | bodyField (name : String)
  | bodyArgument (name : String)
  | pathParameter (var : String)
  /-- On the way from the body to the query string. -/
  | bodyExit (name : String)
  /-- Anything else, as described. -/
  | described (text : String)
  deriving DecidableEq, Inhabited

/-- The text of a place. -/
def Place.text : Place → String
  | .argument name => s!"argument `{name}`"
  | .field owner name => s!"argument `{owner}` field `{name}`"
  | .bodyField name => s!"body field `{name}`"
  | .bodyArgument name => s!"body argument `{name}`"
  | .pathParameter var => s!"path parameter `{var}`"
  | .bodyExit name => s!"argument `{name}` cannot move out of the request body"
  | .described text => text

/-- A cause and the places it was met in, outermost first. -/
structure Fault where
  cause : Cause
  places : List Place
  deriving DecidableEq, Inhabited

namespace Fault

/-- The fault met one place further out. -/
def within (place : Place) (f : Fault) : Fault := { f with places := place :: f.places }

/-- The kind of the fault. -/
def kind (f : Fault) : FaultKind := f.cause.kind

/-- The text of the fault without its kind. -/
def message (f : Fault) : String :=
  f.places.foldr (fun place rest => place.text ++ ": " ++ rest) f.cause.message

/-- The text of the fault with its kind. -/
def display (f : Fault) : String := f.kind.label ++ ": " ++ f.message

@[simp]
theorem kind_within (place : Place) (f : Fault) : (f.within place).kind = f.kind := rfl

end Fault

/-- A fault without a place. -/
def Cause.fault (c : Cause) : Fault := ⟨c, []⟩

/-- A computation that stops with a fault. -/
abbrev Checked := Except Fault

/-- Stop with the given cause. -/
def fail {α : Type} (c : Cause) : Checked α := .error c.fault

/-- Name the place in which a computation may stop. -/
def Checked.within {α : Type} (place : Place) (x : Checked α) : Checked α :=
  x.mapError (·.within place)

/-- A fault of a method or interface, with the directive it was met in. -/
structure Diagnostic where
  /-- The name of the method, or of the interface. -/
  owner : String
  /-- The directive as written, or nothing if the fault belongs to no single line. -/
  directive : String
  fault : Fault
  deriving DecidableEq, Inhabited

namespace Diagnostic

/-- The text of the diagnostic. -/
def display (d : Diagnostic) : String :=
  "method " ++ d.owner ++ ": " ++ d.fault.display ++
    if d.directive = "" then "" else " (in \"" ++ d.directive ++ "\")"

end Diagnostic

/-- A computation that stops with a diagnostic. -/
abbrev Diagnosed := Except Diagnostic

/-- Say whose directive a computation was about. -/
def Checked.at {α : Type} (owner directive : String) (x : Checked α) : Diagnosed α :=
  x.mapError (⟨owner, directive, ·⟩)

end Routespec
