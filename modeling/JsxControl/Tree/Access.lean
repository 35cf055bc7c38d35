import JsxControl.Tree.OfJson

/-!
# Reading the content of fields

A tree may be malformed, so each way to look into a value says what is wrong where the value is not
of the form it needs.
-/

namespace JsxControl

/-- The field of a node by which the rules of its kind know it; unknown kinds have no such fields. A
note may stand in for a field that the kind does not have. -/
def Node.field (n : Node) (name : String) : Except Fault Value :=
  if n.kind.isOther then .error (.noField name)
  else match Entries.get? n.fields name with
    | some v => .ok v
    | none =>
      match n.origin.note? name with
      | some note => Value.ofJson note
      | none => .error (.noField name)

namespace Value

/-- The field of a value that has to be a node. -/
def field (v : Value) (name : String) : Except Fault Value :=
  match v with
  | .node n => n.field name
  | _ => .error .notNode

/-- What a value is made of when it is gone through: the items of a list, the characters of a text,
the names of a record's members. -/
def items : Value → Except Fault (List Value)
  | .list items => .ok items
  | .text s => .ok (s.toList.map fun c => .text (String.singleton c))
  | .record members => .ok (members.map fun member => .text member.1)
  | _ => .error .notIterable

/-- The text that a value is. -/
def toText : Value → Except Fault String
  | .text s => .ok s
  | _ => .error .notText

/-- The text that a value is, where its spelling counts. -/
def spelling : Value → Except Fault String
  | .text s => .ok s
  | _ => .error .notSpelled

/-- The texts that values are. -/
def toTexts : List Value → Except Fault (List String)
  | [] => .ok []
  | v :: rest => do
    let s ← v.toText
    return s :: (← toTexts rest)

/-- A value as a key to look something up by; only scalars can be keys. -/
def key : Value → Except Fault Scalar
  | .scalar s => .ok s
  | _ => .error .notKey

end Value

end JsxControl
