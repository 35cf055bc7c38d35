import JsxControl.Source.Level
import JsxControl.Source.Literal
import JsxControl.Text.Letter
import JsxControl.Tree.Markup

/-!
# Source text of trees

`Value.source` writes a tree of any kind as program text. The text serves messages and traces: it
favours readable output over the layout of the input, and a node of an unknown kind is written as a
comment that names the kind.

A field that should hold a name or the text of a literal may hold anything. It is passed on as it
is, as what the tree is written as. Where a larger text is made from it, it is shown like any other
value, or the text cannot be made: what is joined or put behind a mark has to be a text.
-/

namespace JsxControl.Source

/-- What the items of a list are written as: expressions, statements or markup in a place that asks
for a level, the statements of a block, or the declarators of a declaration. -/
inductive Role
  | operand (least : Nat)
  | statement
  | declarator

/-- Items in a place that asks for no level. -/
def Role.plain : Role := .operand 0

/-- Whether a value can be written in a role at all. -/
def Role.admit (role : Role) (v : Value) : Except Fault Unit :=
  match role, v with
  | .operand _, _ => .ok ()
  | .statement, _ => .ok ()
  | .declarator, .node n =>
    if n.kind = .variableDeclarator then .ok () else .error (.noField "init")
  | .declarator, _ => .error .notNode

/-- What a value is written as in a role: with parentheses where the role asks for them. The line of
a statement has to be a text. -/
def Role.finish (role : Role) (v written : Value) : Except Fault Value :=
  match role with
  | .operand least => enclose least v written
  | .statement => .text <$> written.toText
  | .declarator => .ok written

/-- Texts with a separator between them. -/
def joined (separator : String) (parts : List Value) : Except Fault String := do
  return separator.intercalate (← Value.toTexts parts)

/-- The white space in front of a line at some depth of blocks. -/
def indent (depth : Nat) : String := String.ofList (List.replicate (2 * depth) ' ')

/-- A text in braces. -/
def inBraces (text : String) : String := "\x7b" ++ text ++ "\x7d"

/-- A block at some depth with the texts of its statements. -/
def block (depth : Nat) (statements : List String) : String :=
  if statements.isEmpty then inBraces ""
  else inBraces ("\n" ++ "\n".intercalate (statements.map (indent (depth + 1) ++ ·)) ++ "\n"
    ++ indent depth)

/-- Whether a text begins with another. -/
def beginsWith (text start : String) : Bool := start.toList.isPrefixOf text.toList

/-- An expression that stands as a statement; one that would read as a block or as a declaration is
put in parentheses. -/
def expressionStatement (text : String) : String :=
  (if beginsWith text "\x7b" || beginsWith text "function" then "(" ++ text ++ ")" else text) ++ ";"

/-- Whether a value is a literal integer, behind which a point would be read as part of it. -/
def isIntegerLiteral (v : Value) : Except Fault Bool :=
  if v.isA .literal then do
    match ← v.field "value" with
    | .scalar (.int _) | .scalar (.bool _) => return true
    | _ => return false
  else
    .ok false

/-- A unary operator with its operand: a word is set apart by a blank. -/
def unary (operator operand : Value) : Except Fault String := do
  let s ← operator.spelling
  return if Text.isWord s then s ++ " " ++ operand.shown else s ++ operand.shown

/-- The levels that the operands of a binary operator ask for: `**` groups to the right, the others
to the left. -/
def operandLevels (operator : Value) (level : Nat) : Nat × Nat :=
  match operator with
  | .text "**" => (level + 1, level)
  | _ => (level, level + 1)

/-- The comment that stands for a node of an unknown kind. A kind that claims to be markup has no
markup to be written as. -/
def comment (kind : Kind) : Except Fault String := do
  if ← kind.isMarkup then .error .endless else return "/* " ++ kind.label ++ " */"

/-- The name of a declared function; it may have none. -/
def functionName (id : Value) : Except Fault String :=
  if id.isNull then .ok "" else do return (← id.field "name").shown

/-- The fault of a node that does not have the fields of its kind. -/
def malformed (kind : Kind) : Except Fault Value := .error (.wrongFields kind)

end JsxControl.Source

namespace JsxControl

open Source

mutual

/-- What a value is written as inside `depth` blocks. Null is written as nothing. -/
def Value.sourceAt (depth : Nat) : Value → Except Fault Value
  | .scalar s => if s = .null then .ok (.text "") else .error .notNode
  | .list _ => .error .notNode
  | .record _ => .error .notNode
  | .node n => n.sourceAt depth

/-- What a node is written as inside `depth` blocks, without parentheses around it. -/
def Node.sourceAt (depth : Nat) : Node → Except Fault Value
  | ⟨kind, fields, _⟩ =>
    match kind with
    | .program =>
      match fields with
      | [(_, body), _] => do return .text (← joined "\n" (← body.sourceParts depth .plain))
      | _ => malformed kind
    | .expressionStatement =>
      match fields with
      | [(_, expression)] => do
        return .text (expressionStatement (← (← expression.sourceAt depth).spelling))
      | _ => malformed kind
    | .emptyStatement => .ok (.text ";")
    | .blockStatement =>
      match fields with
      | [(_, body)] => do
        return .text (block depth (← Value.toTexts (← body.sourceParts (depth + 1) .statement)))
      | _ => malformed kind
    | .ifStatement =>
      match fields with
      | [(_, test), (_, consequent), (_, alternate)] => do
        let condition ← test.sourceAt depth
        let first ← consequent.sourceAt depth
        let text := "if (" ++ condition.shown ++ ") " ++ first.shown
        if alternate.isNull then return .text text
        else return .text (text ++ " else " ++ (← alternate.sourceAt depth).shown)
      | _ => malformed kind
    | .returnStatement =>
      match fields with
      | [(_, argument)] =>
        if argument.isNull then .ok (.text "return;")
        else do return .text ("return " ++ (← argument.sourceAt depth).shown ++ ";")
      | _ => malformed kind
    | .variableDeclarator =>
      match fields with
      | [(_, id), (_, init)] => do
        let name ← id.sourceAt depth
        if init.isNull then return name
        else
          let content ← enclose assignLevel init (← init.sourceAt depth)
          return .text (name.shown ++ " = " ++ content.shown)
      | _ => malformed kind
    | .variableDeclaration =>
      match fields with
      | [(_, declarations), (_, keyword)] => do
        let declarators ← joined ", " (← declarations.sourceParts depth .declarator)
        return .text (keyword.shown ++ " " ++ declarators ++ ";")
      | _ => malformed kind
    | .functionDeclaration =>
      match fields with
      | [(_, id), (_, params), (_, body)] => do
        let name ← functionName id
        let names ← joined ", " (← params.sourceParts depth .plain)
        let statements ← Value.toTexts (← body.bodyAt (depth + 1))
        return .text ("function " ++ name ++ "(" ++ names ++ ") " ++ block depth statements)
      | _ => malformed kind
    | .identifier =>
      match fields with
      | [(_, name)] => .ok name
      | _ => malformed kind
    | .literal =>
      match fields with
      | [(_, value), (_, raw)] => .ok (literal value raw)
      | _ => malformed kind
    | .memberExpression =>
      match fields with
      | [(_, object), (_, property), (_, computed), (_, optional)] => do
        let inner ← enclose callLevel object (← object.sourceAt depth)
        let holder :=
          if ← isIntegerLiteral object then "(" ++ inner.shown ++ ")" else inner.shown
        let name ← property.sourceAt depth
        if computed.isSet then
          return .text (holder ++ (if optional.isSet then "?." else "") ++ "[" ++ name.shown ++ "]")
        else
          return .text (holder ++ (if optional.isSet then "?." else ".") ++ name.shown)
      | _ => malformed kind
    | .callExpression =>
      match fields with
      | [(_, callee), (_, arguments), (_, optional)] => do
        let function ← enclose callLevel callee (← callee.sourceAt depth)
        let operands ← joined ", " (← arguments.sourceParts depth (.operand assignLevel))
        return .text (function.shown ++ (if optional.isSet then "?." else "") ++ "(" ++ operands
          ++ ")")
      | _ => malformed kind
    | .arrowFunctionExpression =>
      match fields with
      | [(_, params), (_, body), _] => do
        let names ← joined ", " (← params.sourceParts depth .plain)
        let written ← body.sourceAt depth
        let result ←
          if body.isA .blockStatement then .ok written
          else if body.isA .objectExpression then .ok (.text ("(" ++ written.shown ++ ")"))
          else enclose assignLevel body written
        return .text ("(" ++ names ++ ") => " ++ result.shown)
      | _ => malformed kind
    | .conditionalExpression =>
      match fields with
      | [(_, test), (_, consequent), (_, alternate)] => do
        let condition ← enclose (conditionalLevel + 1) test (← test.sourceAt depth)
        let first ← enclose assignLevel consequent (← consequent.sourceAt depth)
        let second ← enclose assignLevel alternate (← alternate.sourceAt depth)
        return .text (condition.shown ++ " ? " ++ first.shown ++ " : " ++ second.shown)
      | _ => malformed kind
    | .unaryExpression =>
      match fields with
      | [(_, operator), (_, argument), _] => do
        return .text (← unary operator
          (← enclose unaryLevel argument (← argument.sourceAt depth)))
      | _ => malformed kind
    | .binaryExpression | .logicalExpression =>
      match fields with
      | [(_, operator), (_, left), (_, right)] => do
        let levels := operandLevels operator (operatorLevel (← operator.key))
        let first ← enclose levels.1 left (← left.sourceAt depth)
        let second ← enclose levels.2 right (← right.sourceAt depth)
        return .text (first.shown ++ " " ++ operator.shown ++ " " ++ second.shown)
      | _ => malformed kind
    | .spreadElement =>
      match fields with
      | [(_, argument)] => do
        let operand ← enclose assignLevel argument (← argument.sourceAt depth)
        return .text ("..." ++ (← operand.toText))
      | _ => malformed kind
    | .arrayExpression =>
      match fields with
      | [(_, elements)] => do
        let items ← joined ", " (← elements.sourceParts depth (.operand assignLevel))
        return .text ("[" ++ items ++ "]")
      | _ => malformed kind
    | .property =>
      match fields with
      | [(_, key), (_, value), _, (_, computed), (_, shorthand), _] => do
        if shorthand.isSet then value.sourceAt depth
        else
          let name ← key.sourceAt depth
          let content ← enclose assignLevel value (← value.sourceAt depth)
          return .text ((if computed.isSet then "[" ++ name.shown ++ "]" else name.shown) ++ ": "
            ++ content.shown)
      | _ => malformed kind
    | .objectExpression =>
      match fields with
      | [(_, properties)] => do
        return .text (inBraces (← joined ", " (← properties.sourceParts depth .plain)))
      | _ => malformed kind
    | .jsxIdentifier =>
      match fields with
      | [(_, name)] => .ok name
      | _ => malformed kind
    | .jsxMemberExpression =>
      match fields with
      | [(_, object), (_, property)] => do
        let holder ← object.sourceAt depth
        return .text (holder.shown ++ "." ++ (← property.field "name").shown)
      | _ => malformed kind
    | .jsxNamespacedName =>
      match fields with
      | [(_, space), (_, name)] => do
        let first ← space.field "name"
        return .text (first.shown ++ ":" ++ (← name.field "name").shown)
      | _ => malformed kind
    | .jsxEmptyExpression => .ok (.text "")
    | .jsxExpressionContainer =>
      match fields with
      | [(_, expression)] => do
        return .text (inBraces (← (← expression.sourceAt depth).toText))
      | _ => malformed kind
    | .jsxText =>
      match fields with
      | [(_, value), (_, raw)] => .ok (if raw.isNull then value else raw)
      | _ => malformed kind
    | .jsxAttribute =>
      match fields with
      | [(_, name), (_, value)] => do
        let start ← name.sourceAt depth
        if value.isNull then return start
        else return .text (start.shown ++ "=" ++ (← value.sourceAt depth).shown)
      | _ => malformed kind
    | .jsxSpreadAttribute =>
      match fields with
      | [(_, argument)] => do
        let operand ← enclose assignLevel argument (← argument.sourceAt depth)
        return .text (inBraces ("..." ++ (← operand.toText)))
      | _ => malformed kind
    | .jsxOpeningElement =>
      match fields with
      | [(_, name), (_, attributes), (_, selfClosing)] => do
        let first ← name.sourceAt depth
        let others ← attributes.sourceParts depth .plain
        let last := if selfClosing.isSet then [.text "/"] else []
        return .text ("<" ++ (← joined " " (first :: others ++ last)) ++ ">")
      | _ => malformed kind
    | .jsxClosingElement =>
      match fields with
      | [(_, name)] => do return .text ("</" ++ (← name.sourceAt depth).shown ++ ">")
      | _ => malformed kind
    | .jsxElement =>
      match fields with
      | [(_, opening), (_, children), _] => do
        let inner ← joined "" (← children.sourceParts depth .plain)
        let start ← opening.sourceAt depth
        if (← opening.field "self_closing").isSet then return start
        else return .text (start.shown ++ inner ++ "</" ++ (← opening.nameAt depth).shown ++ ">")
      | _ => malformed kind
    | .jsxOpeningFragment => .ok (.text "<>")
    | .jsxClosingFragment => .ok (.text "</>")
    | .jsxFragment =>
      match fields with
      | [_, (_, children), _] => do
        return .text ("<>" ++ (← joined "" (← children.sourceParts depth .plain)) ++ "</>")
      | _ => malformed kind
    | .other tag => .text <$> comment (.other tag)

/-- What the parts of a value are written as, each in the given role. -/
def Value.sourceParts (depth : Nat) (role : Role) : Value → Except Fault (List Value)
  | .scalar (.text s) => if s.isEmpty then .ok [] else .error .notNode
  | .scalar _ => .error .notIterable
  | .list items => Value.sourceItems depth role items
  | .record members => if members.isEmpty then .ok [] else .error .notNode
  | .node _ => .error .notIterable

/-- What the items of a list are written as, each in the given role. -/
def Value.sourceItems (depth : Nat) (role : Role) : List Value → Except Fault (List Value)
  | [] => .ok []
  | item :: rest => do
    role.admit item
    let written ← role.finish item (← item.sourceAt depth)
    return written :: (← Value.sourceItems depth role rest)

/-- What the name of a value is written as. -/
def Value.nameAt (depth : Nat) : Value → Except Fault Value
  | .scalar _ => .error .notNode
  | .list _ => .error .notNode
  | .record _ => .error .notNode
  | .node n => n.nameAt depth

/-- What the name of a node is written as. -/
def Node.nameAt (depth : Nat) : Node → Except Fault Value
  | ⟨kind, fields, _⟩ =>
    if kind.isOther then .error (.noField "name") else Node.nameAmong depth fields

/-- What the field named `name` is written as. -/
def Node.nameAmong (depth : Nat) : List (String × Value) → Except Fault Value
  | [] => .error (.noField "name")
  | (name, v) :: rest =>
    if name = "name" then v.sourceAt depth else Node.nameAmong depth rest

/-- What the statements in the body of a value are written as. -/
def Value.bodyAt (depth : Nat) : Value → Except Fault (List Value)
  | .scalar _ => .error .notNode
  | .list _ => .error .notNode
  | .record _ => .error .notNode
  | .node n => n.bodyAt depth

/-- What the statements in the body of a node are written as. -/
def Node.bodyAt (depth : Nat) : Node → Except Fault (List Value)
  | ⟨kind, fields, _⟩ =>
    if kind.isOther then .error (.noField "body") else Node.bodyAmong depth fields

/-- What the statements in the field named `body` are written as. -/
def Node.bodyAmong (depth : Nat) : List (String × Value) → Except Fault (List Value)
  | [] => .error (.noField "body")
  | (name, v) :: rest =>
    if name = "body" then v.sourceParts depth .statement else Node.bodyAmong depth rest

end

/-- What a tree is written as: its source text, unless it is nothing but a field that is no text. -/
def Value.source (v : Value) : Except Fault Value := v.sourceAt 0

end JsxControl
