import JsxControl.Tree.Access
import JsxControl.Tree.Display

/-!
# Levels of expressions

How tightly each kind of expression binds. An expression stands without parentheses where the level
that its place asks for is not above its own.
-/

namespace JsxControl.Source

/-- The level of an assignment, which is that of an arrow function and of an argument. -/
def assignLevel : Nat := 2

/-- The level of a conditional. -/
def conditionalLevel : Nat := 3

/-- The level of a unary operator. -/
def unaryLevel : Nat := 15

/-- The level of a call and of a member access. -/
def callLevel : Nat := 18

/-- The level of what needs no parentheses anywhere. -/
def primaryLevel : Nat := 20

/-- The binary and logical operators with their levels. -/
def operatorLevels : List (String × Nat) :=
  [("??", 4), ("||", 4), ("&&", 5), ("|", 6), ("^", 7), ("&", 8),
   ("==", 9), ("!=", 9), ("===", 9), ("!==", 9),
   ("<", 10), (">", 10), ("<=", 10), (">=", 10), ("in", 10), ("instanceof", 10),
   ("<<", 11), (">>", 11), (">>>", 11), ("+", 12), ("-", 12), ("*", 13), ("/", 13), ("%", 13),
   ("**", 14)]

/-- The level of a binary operator; one that is not in the table binds like the tightest. -/
def operatorLevel (operator : Scalar) : Nat :=
  match operator with
  | .text s => (operatorLevels.lookup s).getD (unaryLevel - 1)
  | _ => unaryLevel - 1

/-- The level of a node. -/
def levelOfNode (n : Node) : Except Fault Nat :=
  match n.kind with
  | .binaryExpression | .logicalExpression => do
    return operatorLevel (← (← n.field "operator").key)
  | .arrowFunctionExpression => .ok assignLevel
  | .conditionalExpression => .ok conditionalLevel
  | .unaryExpression => .ok unaryLevel
  | .callExpression | .memberExpression => .ok callLevel
  | .other _ => .ok 0
  | _ => .ok primaryLevel

/-- The level of a value; what is no node needs no parentheses. -/
def level (v : Value) : Except Fault Nat :=
  match v with
  | .node n => levelOfNode n
  | _ => .ok primaryLevel

/-- What `v` is written as in a place that asks for the level `least`. -/
def enclose (least : Nat) (v written : Value) : Except Fault Value := do
  return if (← level v) < least then .text ("(" ++ written.shown ++ ")") else written

end JsxControl.Source
