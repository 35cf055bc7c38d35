import JsxControl.Tree.Basic

/-!
# Fields of the known kinds

Each known kind has its fields in a fixed order. A field that a document may leave out has the
content that it then takes.
-/

namespace JsxControl

/-- A field of a kind: its name and, unless the field is required, its content by default. -/
structure FieldSpec where
  name : String
  default? : Option Value

namespace FieldSpec

/-- A field that has to be given. -/
def required (name : String) : FieldSpec := ⟨name, none⟩

/-- A field that may be left out. -/
def optional (name : String) (default : Value) : FieldSpec := ⟨name, some default⟩

end FieldSpec

open FieldSpec

/-- The fields of a known kind, in order; other kinds have no fields of their own. -/
def Kind.layout : Kind → List FieldSpec
  | .program => [optional "body" (.list []), optional "source_type" (.text "module")]
  | .expressionStatement => [required "expression"]
  | .emptyStatement => []
  | .blockStatement => [optional "body" (.list [])]
  | .ifStatement => [required "test", required "consequent", optional "alternate" .null]
  | .returnStatement => [optional "argument" .null]
  | .variableDeclarator => [required "id", optional "init" .null]
  | .variableDeclaration => [required "declarations", optional "kind" (.text "const")]
  | .functionDeclaration => [required "id", required "params", required "body"]
  | .identifier => [required "name"]
  | .literal => [required "value", optional "raw" .null]
  | .memberExpression =>
    [required "object", required "property", optional "computed" (.bool false),
     optional "optional" (.bool false)]
  | .callExpression =>
    [required "callee", optional "arguments" (.list []), optional "optional" (.bool false)]
  | .arrowFunctionExpression =>
    [required "params", required "body", optional "expression" (.bool true)]
  | .conditionalExpression => [required "test", required "consequent", required "alternate"]
  | .unaryExpression => [required "operator", required "argument", optional "prefix" (.bool true)]
  | .binaryExpression => [required "operator", required "left", required "right"]
  | .logicalExpression => [required "operator", required "left", required "right"]
  | .spreadElement => [required "argument"]
  | .arrayExpression => [optional "elements" (.list [])]
  | .property =>
    [required "key", required "value", optional "kind" (.text "init"),
     optional "computed" (.bool false), optional "shorthand" (.bool false),
     optional "method" (.bool false)]
  | .objectExpression => [optional "properties" (.list [])]
  | .jsxIdentifier => [required "name"]
  | .jsxMemberExpression => [required "object", required "property"]
  | .jsxNamespacedName => [required "namespace", required "name"]
  | .jsxEmptyExpression => []
  | .jsxExpressionContainer => [required "expression"]
  | .jsxText => [required "value", optional "raw" .null]
  | .jsxAttribute => [required "name", optional "value" .null]
  | .jsxSpreadAttribute => [required "argument"]
  | .jsxOpeningElement =>
    [required "name", optional "attributes" (.list []), optional "self_closing" (.bool false)]
  | .jsxClosingElement => [required "name"]
  | .jsxElement =>
    [required "opening_element", optional "children" (.list []), optional "closing_element" .null]
  | .jsxOpeningFragment => []
  | .jsxClosingFragment => []
  | .jsxFragment =>
    [optional "opening_fragment" (.node ⟨.jsxOpeningFragment, [], {}⟩),
     optional "children" (.list []),
     optional "closing_fragment" (.node ⟨.jsxClosingFragment, [], {}⟩)]
  | .other _ => []

/-- The names of the fields of a known kind. -/
def Kind.fieldNames (kind : Kind) : List String := kind.layout.map (·.name)

end JsxControl
