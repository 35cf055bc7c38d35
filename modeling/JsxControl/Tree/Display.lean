import JsxControl.Tree.Basic

/-!
# Trees as they are displayed

How a part of a tree appears in a message, or where a text is made from a field that is no text.
-/

namespace JsxControl

mutual

/-- A value as a part of a displayed list. -/
def Value.display : Value → String
  | .scalar s => s.display
  | .list items => "[" ++ ", ".intercalate (Value.displayItems items) ++ "]"
  | .record members => (Json.record members).display
  | .node n => n.display

/-- A node by its kind and its fields. -/
def Node.display : Node → String
  | ⟨kind, fields, _⟩ => kind.label ++ "(" ++ ", ".intercalate (Value.displayFields fields) ++ ")"

/-- The displayed items of a list. -/
def Value.displayItems : List Value → List String
  | [] => []
  | item :: rest => item.display :: Value.displayItems rest

/-- The displayed fields of a node. -/
def Value.displayFields : List (String × Value) → List String
  | [] => []
  | (name, v) :: rest => (name ++ "=" ++ v.display) :: Value.displayFields rest

end

/-- A value as it appears in a message. -/
def Value.shown : Value → String
  | .text s => s
  | v => v.display

@[simp] theorem Value.shown_text (s : String) : Value.shown (.text s) = s := rfl

end JsxControl
