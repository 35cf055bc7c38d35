import JsxControl.Tree.Markup

/-!
# Pseudo-elements

The elements that stand for control flow, and the existence checks that are generated for their
names.
-/

namespace JsxControl

/-- A pseudo-element. -/
inductive Construct
  /-- `<$for var={x} of={e}>` repeats its children. -/
  | loop
  /-- `<$if test={e}>` opens a chain of branches. -/
  | whenTrue
  /-- `<$else-if test={e}>` continues a chain. -/
  | otherwiseWhen
  /-- `<$else>` ends a chain. -/
  | otherwise
  /-- `<$let var={x} value={e}>` names a value. -/
  | binding
  deriving DecidableEq, Repr

namespace Construct

/-- The tag name of a construct. -/
def name : Construct → String
  | loop => "$for"
  | whenTrue => "$if"
  | otherwiseWhen => "$else-if"
  | otherwise => "$else"
  | binding => "$let"

/-- All constructs. -/
def all : List Construct := [loop, whenTrue, otherwiseWhen, otherwise, binding]

/-- The construct with a given tag name. -/
def ofName? (name : Scalar) : Option Construct :=
  all.find? fun c => .text c.name = name

/-- The construct that a value is, if it is one. -/
def ofValue? (v : Value) : Except Fault (Option Construct) := do
  return ofName? (← (← v.tagName).key)

/-- Whether a value bears the tag name of the construct. -/
def isTagOf (c : Construct) (v : Value) : Except Fault Bool := do
  match ← v.tagName with
  | .text s => return s = c.name
  | _ => return false

end Construct

/-- The function that a document calls once for each component name that it mentions. -/
def guardFunction : String := "_missingMdxReference"

/-- Whether a value is a call that checks that a pseudo-element exists. -/
def Value.isReferenceGuard (v : Value) : Except Fault Bool :=
  if v.isA .callExpression then do
    let callee ← v.field "callee"
    if !callee.isA .identifier then return false
    match ← callee.field "name" with
    | .text s =>
      if s ≠ guardFunction then return false
      match ← v.field "arguments" with
      | .record (_ :: _) => .error (.noMember "0")
      | arguments =>
        match ← arguments.items with
        | [] => return false
        | first :: _ =>
          if first.isA .literal then
            return (Construct.ofName? (← (← first.field "value").key)).isSome
          else
            return false
    | _ => return false
  else
    .ok false

end JsxControl
