import JsxControl.Json.Display

/-!
# Kinds of nodes

The kinds of ESTree nodes, with those of the JSX extension, that the library knows by name. Every
other type tag makes a kind of its own.
-/

namespace JsxControl

/-- The kind of a node: one that the library knows, or another with its type tag. -/
inductive Kind
  | program
  | expressionStatement
  | emptyStatement
  | blockStatement
  | ifStatement
  | returnStatement
  | variableDeclarator
  | variableDeclaration
  | functionDeclaration
  | identifier
  | literal
  | memberExpression
  | callExpression
  | arrowFunctionExpression
  | conditionalExpression
  | unaryExpression
  | binaryExpression
  | logicalExpression
  | spreadElement
  | arrayExpression
  | property
  | objectExpression
  | jsxIdentifier
  | jsxMemberExpression
  | jsxNamespacedName
  | jsxEmptyExpression
  | jsxExpressionContainer
  | jsxText
  | jsxAttribute
  | jsxSpreadAttribute
  | jsxOpeningElement
  | jsxClosingElement
  | jsxElement
  | jsxOpeningFragment
  | jsxClosingFragment
  | jsxFragment
  /-- A kind without rules of its own. Its tag is usually a text, but any scalar is kept. -/
  | other (tag : Scalar)
  deriving DecidableEq, Inhabited

namespace Kind

/-- The kinds known by name. -/
def known : List Kind :=
  [.program, .expressionStatement, .emptyStatement, .blockStatement, .ifStatement,
   .returnStatement, .variableDeclarator, .variableDeclaration, .functionDeclaration, .identifier,
   .literal, .memberExpression, .callExpression, .arrowFunctionExpression, .conditionalExpression,
   .unaryExpression, .binaryExpression, .logicalExpression, .spreadElement, .arrayExpression,
   .property, .objectExpression, .jsxIdentifier, .jsxMemberExpression, .jsxNamespacedName,
   .jsxEmptyExpression, .jsxExpressionContainer, .jsxText, .jsxAttribute, .jsxSpreadAttribute,
   .jsxOpeningElement, .jsxClosingElement, .jsxElement, .jsxOpeningFragment, .jsxClosingFragment,
   .jsxFragment]

/-- The type tag of a kind. -/
def tag : Kind → Scalar
  | .program => .text "Program"
  | .expressionStatement => .text "ExpressionStatement"
  | .emptyStatement => .text "EmptyStatement"
  | .blockStatement => .text "BlockStatement"
  | .ifStatement => .text "IfStatement"
  | .returnStatement => .text "ReturnStatement"
  | .variableDeclarator => .text "VariableDeclarator"
  | .variableDeclaration => .text "VariableDeclaration"
  | .functionDeclaration => .text "FunctionDeclaration"
  | .identifier => .text "Identifier"
  | .literal => .text "Literal"
  | .memberExpression => .text "MemberExpression"
  | .callExpression => .text "CallExpression"
  | .arrowFunctionExpression => .text "ArrowFunctionExpression"
  | .conditionalExpression => .text "ConditionalExpression"
  | .unaryExpression => .text "UnaryExpression"
  | .binaryExpression => .text "BinaryExpression"
  | .logicalExpression => .text "LogicalExpression"
  | .spreadElement => .text "SpreadElement"
  | .arrayExpression => .text "ArrayExpression"
  | .property => .text "Property"
  | .objectExpression => .text "ObjectExpression"
  | .jsxIdentifier => .text "JSXIdentifier"
  | .jsxMemberExpression => .text "JSXMemberExpression"
  | .jsxNamespacedName => .text "JSXNamespacedName"
  | .jsxEmptyExpression => .text "JSXEmptyExpression"
  | .jsxExpressionContainer => .text "JSXExpressionContainer"
  | .jsxText => .text "JSXText"
  | .jsxAttribute => .text "JSXAttribute"
  | .jsxSpreadAttribute => .text "JSXSpreadAttribute"
  | .jsxOpeningElement => .text "JSXOpeningElement"
  | .jsxClosingElement => .text "JSXClosingElement"
  | .jsxElement => .text "JSXElement"
  | .jsxOpeningFragment => .text "JSXOpeningFragment"
  | .jsxClosingFragment => .text "JSXClosingFragment"
  | .jsxFragment => .text "JSXFragment"
  | .other tag => tag

/-- The kind with a given type tag. -/
def ofTag (tag : Scalar) : Kind :=
  (known.find? (·.tag = tag)).getD (.other tag)

/-- A kind as it is called in outlines and messages. -/
def label (kind : Kind) : String := kind.tag.shown

/-- Whether a kind is one of those that have no rules of their own. -/
def isOther : Kind → Bool
  | .other _ => true
  | _ => false

end Kind

end JsxControl
