import Routespec.Text.Blank
import Routespec.Text.Letter.Alphanumeric
import Routespec.Text.Letter.Cased
import Routespec.Text.Letter.CaseMap

/-!
# Wire names

The name of an argument or field is cut into words at characters that are neither letters nor
digits and at changes of case, and the words are joined again by the naming convention.
-/

namespace Routespec

/-- How the names of arguments and fields become wire names. -/
inductive Naming
  /-- Lower-case words joined by underscores. -/
  | snakeCase
  /-- The first word in lower case, the others capitalised, joined by nothing. -/
  | lowerCamelCase
  deriving DecidableEq, Repr, Inhabited

namespace Naming

/-- The case of the letters read since the last word boundary. -/
inductive Run
  | fresh | lower | upper
  deriving DecidableEq

/-- The run after one more character; a character without case leaves it as it is. -/
def Run.extend (run : Run) (c : Char) : Run :=
  if isLowercase c then .lower else if isUppercase c then .upper else run

/-- The words of a piece without separators. `word` holds, last character first, what was read
of the current word. A word ends after a small letter that a capital follows, and before the last
capital of several when a small letter follows it. -/
def wordsFrom (run : Run) (word : Text) : Text → List Text
  | [] => []
  | [c] => [(c :: word).reverse]
  | c :: next :: rest =>
    if run.extend c = .lower ∧ isUppercase next then
      (c :: word).reverse :: wordsFrom .fresh [] (next :: rest)
    else if run = .upper ∧ isUppercase c ∧ isLowercase next then
      word.reverse :: wordsFrom .fresh [c] (next :: rest)
    else
      wordsFrom (run.extend c) (c :: word) (next :: rest)

/-- The words of a name. -/
def words (name : Text) : List Text :=
  (name.splitOnP (!isAlphanumeric ·)).flatMap (wordsFrom .fresh [])

/-- A word in lower case; a capital sigma at its end takes the final form. -/
def lowerWord : Text → Text
  | [] => []
  | [c] => if c = 'Σ' then ['ς'] else lowerForm c
  | c :: rest => lowerForm c ++ lowerWord rest

/-- A word with its first character in upper case and the others in lower case. -/
def capitalWord : Text → Text
  | [] => []
  | c :: rest => upperForm c ++ lowerWord rest

/-- The words of a name, joined by the convention. -/
def join : Naming → List Text → Text
  | .snakeCase, words => ['_'].intercalate (words.map lowerWord)
  | .lowerCamelCase, [] => []
  | .lowerCamelCase, word :: words => lowerWord word ++ words.flatMap capitalWord

/-- The wire name of a source name. -/
def apply (naming : Naming) (name : String) : String :=
  String.ofList (naming.join (words name.toList))

/-- The convention a user names on the command line. -/
def ofUserName? (name : String) : Option Naming :=
  if name = "snake" ∨ name = "snake_case" then some .snakeCase
  else if name = "camel" ∨ name = "lower_camel_case" ∨ name = "lowerCamelCase" then
    some .lowerCamelCase
  else none

/-- The convention's name in configuration and JSON. -/
def word : Naming → String
  | .snakeCase => "snake_case"
  | .lowerCamelCase => "lower_camel_case"

/-- The convention with the given configuration name. -/
def ofWord? (word : String) : Option Naming :=
  if word = "snake_case" then some .snakeCase
  else if word = "lower_camel_case" then some .lowerCamelCase
  else none

end Naming

end Routespec
