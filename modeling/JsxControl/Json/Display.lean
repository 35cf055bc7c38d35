import JsxControl.Json.Basic
import JsxControl.Text.Displayed

/-!
# Values as they are displayed

How a value appears in a message. A text stands there as it is; inside a list or a record it is
marked as a text, so that `a` and the text "a" differ.
-/

namespace JsxControl

/-! ### Scalars -/

/-- A scalar as a part of a displayed list or record. -/
def Scalar.display : Scalar → String
  | .null => "None"
  | .bool true => "True"
  | .bool false => "False"
  | .int n => toString n
  | .float x => x.text
  | .text s => Text.display s

/-- A scalar as it appears in a message. -/
def Scalar.shown : Scalar → String
  | .text s => s
  | s => s.display

/-- The scalar that stands for all that count as equal when something is looked up: truth values
count as 0 and 1, and a whole floating point number as the integer that it equals. -/
def Scalar.plain : Scalar → Scalar
  | .bool b => .int (if b then 1 else 0)
  | .float x =>
    match x.integer? with
    | some n => .int n
    | none => .float x
  | s => s

/-- Whether two scalars count as equal. -/
def Scalar.same (s t : Scalar) : Bool := s.plain = t.plain

@[simp] theorem Scalar.shown_text (s : String) : Scalar.shown (.text s) = s := rfl

@[simp] theorem Scalar.plain_text (s : String) : Scalar.plain (.text s) = .text s := rfl

/-- Texts count as equal only if they are. -/
@[simp] theorem Scalar.same_text (s t : String) :
    Scalar.same (.text s) (.text t) = decide (s = t) := by
  simp [Scalar.same]

/-! ### Documents -/

mutual

/-- A value as a part of a displayed list or record. -/
def Json.display : Json → String
  | .scalar s => s.display
  | .list items => "[" ++ ", ".intercalate (displayItems items) ++ "]"
  | .record members => "\x7b" ++ ", ".intercalate (displayMembers members) ++ "\x7d"

/-- The displayed items of a list. -/
def Json.displayItems : List Json → List String
  | [] => []
  | item :: rest => item.display :: displayItems rest

/-- The displayed members of a record. -/
def Json.displayMembers : List (String × Json) → List String
  | [] => []
  | (key, value) :: rest => (Text.display key ++ ": " ++ value.display) :: displayMembers rest

end

/-- A value as it appears in a message. -/
def Json.shown : Json → String
  | .text s => s
  | json => json.display

end JsxControl
