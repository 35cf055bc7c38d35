import JsxControl.Complaint
import JsxControl.Source.Text

/-!
# Attributes of pseudo-elements

The attributes of an opening tag by their names. A name is usually a text, but it may be any scalar;
names are the same if they count as equal.
-/

namespace JsxControl.Attributes

/-- The attribute of a name, if there is one. -/
def get? (attributes : List (Scalar × Value)) (name : Scalar) : Option Value :=
  (attributes.find? fun entry => entry.1.same name).map Prod.snd

/-- Stores an attribute: in the place of the one that bears the name, or else behind all others. A
name stays as it was first written. -/
def put (name : Scalar) (attr : Value) : List (Scalar × Value) → List (Scalar × Value)
  | [] => [(name, attr)]
  | (first, v) :: rest =>
    if first.same name then (first, attr) :: rest else (first, v) :: put name attr rest

/-- The attributes among some values by their names. A repeated name has the place of its first and
the content of its last occurrence. -/
def ofValues (stored : List (Scalar × Value)) : List Value → Except Fault (List (Scalar × Value))
  | [] => .ok stored
  | attr :: rest => do
    ofValues (put (← (← attr.attributeName).key) attr stored) rest

/-- The attributes of an opening tag by their names. -/
def ofOpening (opening : Value) : Except Fault (List (Scalar × Value)) := do
  ofValues [] (← (← opening.field "attributes").items)

/-- Complains about the first attribute whose name is not allowed. -/
def check (opening : Value) (attributes : List (Scalar × Value)) (allowed : List Scalar)
    (context : List Value) : Except Fault Unit :=
  match attributes.find? fun entry => !allowed.any entry.1.same with
  | none => .ok ()
  | some (name, attr) => do
    let text ← opening.source
    .error (.complain .unexpectedAttribute ("Bad attribute " ++ name.shown ++ " in " ++ text.shown)
      (context ++ [attr]))

/-- The beginning of a complaint about an attribute that should read `name={placeholder}`. -/
def needed (name : Scalar) (placeholder : String) : String :=
  "Need " ++ name.shown ++ "=" ++ Source.inBraces placeholder

/-- The expression in braces that an attribute has as its value, unless it is empty. -/
def expression? (attr : Value) : Except Fault (Option Value) := do
  let value ← attr.field "value"
  if value.isA .jsxExpressionContainer then
    let expression ← value.field "expression"
    return if expression.isA .jsxEmptyExpression then none else some expression
  else
    return none

/-- The expression that the attribute `name` holds. It has to be there, in braces and not empty;
null in the place of an attribute is none. -/
def required (opening : Value) (attributes : List (Scalar × Value)) (name : Scalar)
    (placeholder : String) (context : List Value) : Except Fault Value :=
  match get? attributes name with
  | none | some .null => do
    let text ← opening.source
    .error (.complain .missingRequiredAttribute (needed name placeholder ++ " in " ++ text.shown)
      context)
  | some attr => do
    match ← expression? attr with
    | some expression => return expression
    | none =>
      let given ← attr.source
      let text ← opening.source
      .error (.complain .invalidAttributeValueShape
        (needed name placeholder ++ ", not " ++ given.shown ++ ", in " ++ text.shown)
        (context ++ [attr]))

end JsxControl.Attributes
