import JsxControl.Number.Shortest
import JsxControl.Text.Quoted

/-!
# JSON documents

JSON values in which the order of a record's members counts and integers, of any size, are apart
from floating point numbers.
-/

namespace JsxControl

/-- A JSON value without parts. -/
inductive Scalar
  | null
  | bool (b : Bool)
  | int (n : Int)
  | float (x : Double)
  | text (s : String)
  deriving DecidableEq, Inhabited

/-- A JSON value; the members of a record are in the order of the document. -/
inductive Json
  | scalar (s : Scalar)
  | list (items : List Json)
  | record (members : List (String × Json))
  deriving Inhabited

namespace Json

/-! ### Scalars as documents -/

@[match_pattern] abbrev null : Json := .scalar .null
@[match_pattern] abbrev bool (b : Bool) : Json := .scalar (.bool b)
@[match_pattern] abbrev int (n : Int) : Json := .scalar (.int n)
@[match_pattern] abbrev float (x : Double) : Json := .scalar (.float x)
@[match_pattern] abbrev text (s : String) : Json := .scalar (.text s)

/-- The integer that a value counts as; a truth value counts as 0 or 1. -/
def int? : Json → Option Int
  | .int n => some n
  | .bool b => some (if b then 1 else 0)
  | _ => none

end Json

/-! ### Compact text -/

/-- The text of a scalar in a document, in printable ASCII. -/
def Scalar.json : Scalar → String
  | .null => "null"
  | .bool true => "true"
  | .bool false => "false"
  | .int n => toString n
  | .float x => x.text
  | .text s => Text.quoteAscii s

mutual

/-- The text of a document on one line, with a blank behind each comma and colon. -/
def Json.compact : Json → String
  | .scalar s => s.json
  | .list items => "[" ++ ", ".intercalate (compactItems items) ++ "]"
  | .record members => "\x7b" ++ ", ".intercalate (compactMembers members) ++ "\x7d"

/-- The texts of the items of a list. -/
def Json.compactItems : List Json → List String
  | [] => []
  | item :: rest => item.compact :: compactItems rest

/-- The texts of the members of a record. -/
def Json.compactMembers : List (String × Json) → List String
  | [] => []
  | (key, value) :: rest => (Text.quoteAscii key ++ ": " ++ value.compact) :: compactMembers rest

end

end JsxControl
