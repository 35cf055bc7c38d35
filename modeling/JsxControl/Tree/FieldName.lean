import JsxControl.Text.Case
import JsxControl.Text.Split

/-!
# Names of fields

Documents spell the names of fields in camel case (`openingElement`), trees in lower case with
underscores (`opening_element`).
-/

namespace JsxControl.FieldName

/-- Puts an underscore before each capital letter from A to Z. -/
def separate (cs : List Char) : List Char :=
  cs.flatMap fun c => if c.isUpper then ['_', c] else [c]

/-- The lower-case spelling of a name: an underscore before every capital letter but the first
character, and all in lower case. -/
def snake : List Char → List Char
  | [] => []
  | c :: cs => Text.lower (c :: separate cs)

/-- The camel-case spelling of a name: what stands behind each underscore in title case. -/
def camel (cs : List Char) : List Char :=
  match Text.splitAt '_' cs with
  | [] => []
  | first :: parts => first ++ parts.flatMap Text.title

/-- The spelling that trees use. -/
def ofKey (key : String) : String := String.ofList (snake key.toList)

/-- The spelling that documents use. -/
def toKey (name : String) : String := String.ofList (camel name.toList)

end JsxControl.FieldName
