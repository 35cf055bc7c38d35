import JsxControl.Proofs.Access
import JsxControl.Proofs.Orderly

/-!
# Legal trees

Which nodes may stand in which slots. A slot is for one category of nodes, and a category allows
some kinds: children and values of attributes are markup, operands are expressions, elements or
fragments, and statements stand apart from both. The slots that no rule is about, such as those of
patterns and names, are free.

Kinds without rules of their own are not known here. A `Dialect` says which of them are expressions
or statements and what their slots are for, and what is shown holds in every dialect.
-/

namespace JsxControl

/-! ### Kinds and their places -/

/-- What a slot is for. -/
inductive Category
  /-- A child of an element or a fragment. -/
  | child
  | attributeValue
  | expression
  /-- What stands in braces, where there may also be nothing. -/
  | braced
  /-- An argument of a call or an item of an array, which may be spread. -/
  | argument
  /-- The body of an arrow function, which may be a block. -/
  | functionBody
  | statement

/-- How many nodes a field holds. -/
inductive Arity
  | one
  | optional
  | many
  /-- A list with holes. -/
  | sparse

/-- What is known of kinds without rules of their own. -/
structure Dialect where
  isExpression : Scalar → Prop
  isStatement : Scalar → Prop
  /-- What the field of a kind is for; there is no demand on a field that this is silent about. -/
  slot? : Scalar → String → Option (Arity × Category)

/-- The dialect without other kinds. -/
def Dialect.known : Dialect := ⟨fun _ => False, fun _ => False, fun _ _ => none⟩

/-- The known kinds of expressions that are no markup. -/
def Kind.expressions : List Kind :=
  [.identifier, .literal, .memberExpression, .callExpression, .arrowFunctionExpression,
   .conditionalExpression, .unaryExpression, .binaryExpression, .logicalExpression,
   .arrayExpression, .objectExpression]

/-- The known kinds of statements. -/
def Kind.statements : List Kind :=
  [.expressionStatement, .emptyStatement, .blockStatement, .ifStatement, .returnStatement,
   .variableDeclaration, .functionDeclaration]

/-- What the fields of the known kinds are for; others are free. -/
def Kind.slots : Kind → List (String × Arity × Category)
  | .program | .blockStatement => [("body", .many, .statement)]
  | .expressionStatement => [("expression", .one, .expression)]
  | .ifStatement =>
    [("test", .one, .expression), ("consequent", .one, .statement),
     ("alternate", .optional, .statement)]
  | .returnStatement => [("argument", .optional, .expression)]
  | .variableDeclarator => [("init", .optional, .expression)]
  | .functionDeclaration => [("body", .one, .statement)]
  | .memberExpression => [("object", .one, .expression), ("property", .one, .expression)]
  | .callExpression => [("callee", .one, .expression), ("arguments", .many, .argument)]
  | .arrowFunctionExpression => [("body", .one, .functionBody)]
  | .conditionalExpression =>
    [("test", .one, .expression), ("consequent", .one, .expression),
     ("alternate", .one, .expression)]
  | .unaryExpression | .spreadElement | .jsxSpreadAttribute => [("argument", .one, .expression)]
  | .binaryExpression | .logicalExpression =>
    [("left", .one, .expression), ("right", .one, .expression)]
  | .arrayExpression => [("elements", .sparse, .argument)]
  | .property => [("key", .one, .expression), ("value", .one, .expression)]
  | .jsxExpressionContainer => [("expression", .one, .braced)]
  | .jsxAttribute => [("value", .optional, .attributeValue)]
  | .jsxElement | .jsxFragment => [("children", .many, .child)]
  | _ => []

namespace Dialect

variable (d : Dialect)

/-- A kind of nodes that can be operands: expressions and the markup that stands for one. -/
def IsOperand (kind : Kind) : Prop :=
  kind ∈ Kind.expressions ∨ kind = .jsxElement ∨ kind = .jsxFragment ∨
    ∃ tag, kind = .other tag ∧ d.isExpression tag

/-- A kind of statements. -/
def IsStatement (kind : Kind) : Prop :=
  kind ∈ Kind.statements ∨ ∃ tag, kind = .other tag ∧ d.isStatement tag

/-- A category allows a kind. -/
def Allows : Category → Kind → Prop
  | .child, kind => kind ∈ [.jsxText, .jsxExpressionContainer, .jsxElement, .jsxFragment]
  | .attributeValue, kind => kind ∈ [.literal, .jsxExpressionContainer, .jsxElement, .jsxFragment]
  | .expression, kind => d.IsOperand kind
  | .braced, kind => d.IsOperand kind ∨ kind = .jsxEmptyExpression
  | .argument, kind => d.IsOperand kind ∨ kind = .spreadElement
  | .functionBody, kind => d.IsOperand kind ∨ kind = .blockStatement
  | .statement, kind => d.IsStatement kind

/-- What a field of a kind is for, if there is a demand on it. -/
def slotOf? (kind : Kind) (name : String) : Option (Arity × Category) :=
  match kind with
  | .other tag => d.slot? tag name
  | _ => Entries.get? kind.slots name

end Dialect

/-! ### Legal nodes -/

/-- A value is a node of a kind that has a property. -/
def Value.IsOf (P : Kind → Prop) (v : Value) : Prop := ∃ n : Node, v = .node n ∧ P n.kind

/-- The content of a field has the nodes that are asked for, and all of them kinds that have a
property. -/
def Arity.Meets (P : Kind → Prop) : Arity → Value → Prop
  | .one, v => v.IsOf P
  | .optional, v => v = .null ∨ v.IsOf P
  | .many, v => ∃ items, v = .list items ∧ ∀ item ∈ items, item.IsOf P
  | .sparse, v => ∃ items, v = .list items ∧ ∀ item ∈ items, item = .null ∨ item.IsOf P

/-- A node has the fields of its kind, and each of them holds what it is for. -/
structure Node.Legal (d : Dialect) (n : Node) : Prop where
  orderly : n.Orderly
  slots : ∀ entry ∈ n.fields, ∀ arity category,
    d.slotOf? n.kind entry.1 = some (arity, category) → arity.Meets (d.Allows category) entry.2

/-- Markup that holds an expression: braces, spread attributes and whatever an unknown kind of
markup may be. -/
def Node.HoldsExpression (n : Node) : Prop :=
  n.kind = .jsxExpressionContainer ∨ n.kind = .jsxSpreadAttribute ∨
    (n.kind.isOther = true ∧ (Value.node n).isJsx = true)

/-- No construct is directly the expression that markup holds. -/
def Node.NoConstructBraced (n : Node) : Prop :=
  n.HoldsExpression → ∀ m, n.Holds m → (Value.node m).construct? = none

/-! ### What fields hold -/

section Meets

variable {P : Kind → Prop} {arity : Arity} {v : Value}

lemma Value.isOf_node {n : Node} : (Value.node n).IsOf P ↔ P n.kind := by
  simp [IsOf]

lemma Arity.Meets.of_mem_slotNodes (h : arity.Meets P v) {m : Node} (hm : m ∈ v.slotNodes) :
    P m.kind := by
  have hone (h : v.IsOf P) : P m.kind := by
    obtain ⟨n, rfl, hn⟩ := h
    obtain rfl : m = n := by simpa [Value.slotNodes] using hm
    exact hn
  cases arity with
  | one => exact hone h
  | optional =>
    rcases h with rfl | h
    · simp [Value.slotNodes] at hm
    · exact hone h
  | many =>
    obtain ⟨items, rfl, hitems⟩ := h
    simpa [Value.isOf_node] using hitems _ (Value.mem_slotNodes_list.mp hm)
  | sparse =>
    obtain ⟨items, rfl, hitems⟩ := h
    simpa [Value.isOf_node] using hitems _ (Value.mem_slotNodes_list.mp hm)

/-- In the place of a node in a field may be whatever is of a kind that is asked for. -/
lemma Arity.Meets.of_node {m : Node} (h : arity.Meets P (.node m)) (hv : v.IsOf P) :
    arity.Meets P v := by
  cases arity with
  | one => exact hv
  | optional => exact .inr hv
  | many | sparse =>
    obtain ⟨items, hlist, -⟩ := h
    simp at hlist

/-- In the place of a list in a field may be one in which only nodes are new, ones of kinds that are
asked for. -/
lemma Arity.Meets.of_list {items items' : List Value} (h : arity.Meets P (.list items))
    (hitems : ∀ item ∈ items', item ∈ items ∨ item.IsOf P) : arity.Meets P (.list items') := by
  cases arity with
  | one | optional => simp [Meets, Value.IsOf] at h
  | many =>
    obtain ⟨_, hlist, hall⟩ := h
    obtain rfl := Value.list.inj hlist
    exact ⟨items', rfl, fun item hitem => (hitems item hitem).elim (hall item) id⟩
  | sparse =>
    obtain ⟨_, hlist, hall⟩ := h
    obtain rfl := Value.list.inj hlist
    exact ⟨items', rfl, fun item hitem => (hitems item hitem).elim (hall item) .inr⟩

end Meets

variable {d : Dialect}

lemma Node.Legal.field {n : Node} (h : n.Legal d) {name : String} {v : Value}
    (hv : n.field name = .ok v) {arity : Arity} {category : Category}
    (hslot : d.slotOf? n.kind name = some (arity, category)) :
    arity.Meets (d.Allows category) v :=
  h.slots _ (h.orderly.field_eq_ok hv).1 _ _ hslot

/-! ### What categories allow -/

namespace Dialect

lemma slotOf?_children {kind : Kind} (h : "children" ∈ kind.fieldNames) :
    d.slotOf? kind "children" = some (.many, .child) := by
  cases kind with
  | jsxElement | jsxFragment => rfl
  | _ => simp [Kind.fieldNames, Kind.layout, FieldSpec.required, FieldSpec.optional] at h

/-- Braces, texts and empty expressions are no operands. -/
lemma not_isOperand {kind : Kind}
    (h : kind ∈ [Kind.jsxExpressionContainer, .jsxText, .jsxEmptyExpression]) :
    ¬ d.IsOperand kind := by
  simp only [List.mem_cons, List.not_mem_nil, or_false] at h
  rcases h with rfl | rfl | rfl <;> simp [IsOperand, Kind.expressions]

/-- Children are markup. -/
lemma Allows.isMarkup {kind : Kind} (h : d.Allows .child kind) : kind.isMarkup = .ok true := by
  simp only [Allows, List.mem_cons, List.not_mem_nil, or_false] at h
  rcases h with rfl | rfl | rfl | rfl <;> rfl

/-- Where an element may stand, a fragment may. -/
lemma Allows.fragment {category : Category} (h : d.Allows category .jsxElement) :
    d.Allows category .jsxFragment := by
  cases category with
  | statement => simp [Allows, IsStatement, Kind.statements] at h
  | _ => simp [Allows, IsOperand]

/-- Where a statement with an expression may stand, an empty one may. -/
lemma Allows.emptyStatement {category : Category} (h : d.Allows category .expressionStatement) :
    d.Allows category .emptyStatement := by
  cases category with
  | statement => simp [Allows, IsStatement, Kind.statements]
  | _ => simp [Allows, IsOperand, Kind.expressions] at h

/-- In markup that holds no expression, braces may stand where an element may. -/
lemma Allows.container {n : Node} (hjsx : (Value.node n).isJsx = true) (hn : ¬ n.HoldsExpression)
    {name : String} {arity : Arity} {category : Category}
    (hslot : d.slotOf? n.kind name = some (arity, category)) :
    d.Allows category .jsxExpressionContainer := by
  rw [Node.HoldsExpression] at hn
  rw [Value.isJsx, Value.isMarkup] at hjsx hn
  cases hkind : n.kind with
  | other tag => simp_all [Kind.isOther]
  | jsxAttribute | jsxElement | jsxFragment =>
    obtain ⟨-, -, rfl⟩ : _ ∧ _ = arity ∧ _ = category := by
      simpa [hkind, slotOf?, Kind.slots, Entries.get?_cons] using hslot
    simp [Allows]
  | jsxExpressionContainer | jsxSpreadAttribute => simp_all
  | jsxIdentifier | jsxMemberExpression | jsxNamespacedName | jsxEmptyExpression | jsxText
  | jsxOpeningElement | jsxClosingElement | jsxOpeningFragment | jsxClosingFragment =>
    simp [hkind, slotOf?, Kind.slots] at hslot
  | _ => exact absurd hjsx (by rw [hkind]; decide)

end Dialect

end JsxControl
