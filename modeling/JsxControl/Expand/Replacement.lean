import JsxControl.Complaint
import JsxControl.Source.Text

/-!
# Replacements

The nodes that take the place of a pseudo-element. A construct always expands to one expression;
the functions here wrap it, and the children it is built from, so that the result is allowed
where the element stood.
-/

namespace JsxControl

/-! ### Nodes without an origin -/

namespace Node

/-- The reference to a variable or the name of a property. -/
def identifier (name : String) : Node := ⟨.identifier, [("name", .text name)], {}⟩

/-- The literal `null`. -/
def nullLiteral : Node := ⟨.literal, [("value", .null), ("raw", .null)], {}⟩

/-- The property of an object under a plain name. -/
def member (object : Value) (name : String) : Node :=
  ⟨.memberExpression,
    [("object", object), ("property", .node (identifier name)), ("computed", .bool false),
     ("optional", .bool false)], {}⟩

/-- A call with one argument. -/
def call (function argument : Value) : Node :=
  ⟨.callExpression,
    [("callee", function), ("arguments", .list [argument]), ("optional", .bool false)], {}⟩

/-- An arrow function with one parameter whose body is an expression. -/
def arrow (param body : Value) : Node :=
  ⟨.arrowFunctionExpression,
    [("params", .list [param]), ("body", body), ("expression", .bool true)], {}⟩

/-- A conditional expression. -/
def conditional (test consequent alternate : Value) : Node :=
  ⟨.conditionalExpression,
    [("test", test), ("consequent", consequent), ("alternate", alternate)], {}⟩

/-- An expression in braces. -/
def container (expression : Value) : Node :=
  ⟨.jsxExpressionContainer, [("expression", expression)], {}⟩

/-- A fragment with the given children. -/
def fragment (children : List Value) : Node :=
  ⟨.jsxFragment,
    [("opening_fragment", .node ⟨.jsxOpeningFragment, [], {}⟩), ("children", .list children),
     ("closing_fragment", .node ⟨.jsxClosingFragment, [], {}⟩)], {}⟩

/-- A statement that does nothing. -/
def emptyStatement : Node := ⟨.emptyStatement, [], {}⟩

end Node

namespace Expand

/-- An expression in the form that the holder of the expanded element takes: in braces within
markup, and as a fragment of that anywhere else. -/
def wrap (expression holder : Value) : Except Fault Value := do
  let container := Value.node (.container expression)
  return if ← holder.isMarkup then container else .node (.fragment [container])

/-- One child as an expression, if it can be one: what stands in braces, or the child itself, unless
that is markup. -/
def childExpression? (child : Value) : Except Fault (Option Value) := do
  if child.isA .jsxExpressionContainer then
    let expression ← child.field "expression"
    if !(← expression.isMarkup) then return some expression
  return if ← child.isMarkup then none else some child

/-- The children of an element as one expression: an only child that can be one, and otherwise the
fragment of all children. -/
def body (children : Value) : Except Fault Value :=
  match children with
  | .record [_] => .error (.noMember "0")
  | _ => do
    match ← children.items with
    | [child] =>
      match ← childExpression? child with
      | some expression => return expression
      | none => return .node (.fragment [child])
    | items => return .node (.fragment items)

/-- A variable that is bound has to be a plain identifier. -/
def pattern (expression : Value) (context : List Value) : Except Fault Value :=
  if expression.isA .identifier then .ok expression
  else do
    let text ← expression.source
    .error (.complain .unsupportedVariablePattern ("Bad variable pattern " ++ text.shown)
      (context ++ [expression]))

end Expand

end JsxControl
