/-!
# HTTP vocabulary

The request methods an operation can be served on and the places a request parameter is read from.
-/

namespace Routespec

/-- An HTTP request method. -/
inductive HttpMethod
  | get | head | post | put | patch | delete | options
  deriving DecidableEq, Repr, Inhabited

namespace HttpMethod

/-- The method's token, in capitals. -/
def token : HttpMethod → String
  | .get => "GET"
  | .head => "HEAD"
  | .post => "POST"
  | .put => "PUT"
  | .patch => "PATCH"
  | .delete => "DELETE"
  | .options => "OPTIONS"

/-- Every method. -/
def all : List HttpMethod := [.get, .head, .post, .put, .patch, .delete, .options]

/-- The method with the given token. -/
def ofToken? (token : String) : Option HttpMethod := all.find? (·.token = token)

/-- Requests with this method carry a body. -/
def carriesBody : HttpMethod → Bool
  | .post | .put | .patch => true
  | _ => false

theorem ofToken?_token (m : HttpMethod) : ofToken? m.token = some m := by
  cases m <;> decide

end HttpMethod

/-- Where a request parameter is read from. -/
inductive Location
  /-- A variable of the URL pattern. -/
  | path
  /-- The query string. -/
  | query
  /-- A header. -/
  | header
  /-- A member of the JSON body. -/
  | body
  /-- Data of the connection, such as the remote address. -/
  | request
  deriving DecidableEq, Repr, Inhabited

namespace Location

/-- The location's name. -/
def word : Location → String
  | .path => "path"
  | .query => "query"
  | .header => "header"
  | .body => "body"
  | .request => "request"

/-- Every location. -/
def all : List Location := [.path, .query, .header, .body, .request]

/-- The location with the given name. -/
def ofWord? (word : String) : Option Location := all.find? (·.word = word)

/-- The locations that an option may ask for; the body is never asked for. -/
def selectable : List Location := [.path, .query, .header, .request]

theorem ofWord?_word (l : Location) : ofWord? l.word = some l := by
  cases l <;> decide

end Location

end Routespec
