import JsxControl.Tree.Display

/-!
# The text of a literal
-/

namespace JsxControl.Source

/-- The text of a scalar as a literal. A floating point number that equals an integer is written as
that integer. -/
def scalarText : Scalar → String
  | .null => "null"
  | .bool true => "true"
  | .bool false => "false"
  | .int n => toString n
  | .float x =>
    match x.integer? with
    | some n => toString n
    | none => x.text
  | .text s => Text.quote s

/-- The text of the value of a literal. A value that is no scalar is displayed. -/
def valueText : Value → String
  | .scalar s => scalarText s
  | v => v.display

/-- What a literal is written as: what it was written as before, if that is known. -/
def literal (value raw : Value) : Value :=
  if raw.isNull then .text (valueText value) else raw

end JsxControl.Source
