import JsxControl.Tree.Access
import JsxControl.Tree.Display

/-!
# Markup

Which nodes are markup, and the names that tags and attributes bear.
-/

namespace JsxControl

/-- Whether a kind is one of markup: its tag begins with `JSX`. -/
def Kind.isMarkup (kind : Kind) : Except Fault Bool :=
  match kind.tag with
  | .text s => .ok (['J', 'S', 'X'].isPrefixOf s.toList)
  | _ => .error .notSpelled

namespace Value

/-- Whether a value is markup. Null is not. -/
def isMarkup : Value → Except Fault Bool
  | .null => .ok false
  | .node n => n.kind.isMarkup
  | _ => .error .notNode

/-- The name that an element's tag spells out. Elements with a dotted or namespaced name, and all
other values, have none. -/
def tagName (v : Value) : Except Fault Value :=
  if v.isA .jsxElement then do
    let name ← (← v.field "opening_element").field "name"
    if name.isA .jsxIdentifier then name.field "name" else .ok .null
  else
    .ok .null

/-- The name of an attribute, as its field has it. The two parts of a namespaced name are shown
around a colon, and whatever is not a named attribute bears the name `...`. -/
def attributeName (v : Value) : Except Fault Value :=
  if v.isA .jsxAttribute then do
    let name ← v.field "name"
    if name.isA .jsxNamespacedName then
      let space ← (← name.field "namespace").field "name"
      let bare ← (← name.field "name").field "name"
      return .text (space.shown ++ ":" ++ bare.shown)
    else
      name.field "name"
  else
    .ok (.text "...")

end Value

end JsxControl
