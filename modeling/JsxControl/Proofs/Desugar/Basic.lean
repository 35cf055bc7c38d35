import JsxControl.Proofs.Access
import JsxControl.Expand.Pass

/-!
# Desugaring

What the constructs of a tree stand for, as a function of the tree alone: it fails nowhere, checks
nothing, and a chain is found by looking at the tags of the items that follow a `$if`. Where a tree
is not of the form that a rule needs, null stands for what is not there.

`Node.desugar` treats the slots of a node. What then takes the place of a node in a slot is
`Desugar.single`, and `Desugar.items` does the same for the items of a list, of which a chain takes
several.
-/

namespace JsxControl

/-- A value continues a chain: it is a branch that cannot stand alone. -/
def Value.Continues (v : Value) : Prop :=
  v.construct? = some .otherwiseWhen ∨ v.construct? = some .otherwise

lemma Value.Continues.eq_node {v : Value} (h : v.Continues) : ∃ n : Node, v = .node n := by
  rcases h with h | h <;> exact (eq_node_of_construct? h).imp fun _ => And.left

/-- A value can stand in a chain: it opens one, or it continues one. -/
def Value.IsBranch (v : Value) : Prop := v.construct? = some .whenTrue ∨ v.Continues

namespace Desugar

/-! ### Single constructs -/

/-- The attributes of an element, in order. -/
def attributes (element : Value) : List Value :=
  ((element.content "opening_element").content "attributes").parts

/-- Whether an attribute bears a name. -/
def isNamed (name : String) (attr : Value) : Bool :=
  match attr.attributeName with
  | .ok (.text s) => s = name
  | _ => false

/-- The last attribute of a name. -/
def attribute? (element : Value) (name : String) : Option Value :=
  (attributes element).reverse.find? (isNamed name)

/-- The expression in the braces of the last attribute of a name. -/
def expression (element : Value) (name : String) : Value :=
  (((attribute? element name).getD .null).content "value").content "expression"

/-- The children of an element. -/
def children (element : Value) : List Value := (element.content "children").parts

/-- Children as one expression: an only child that is no markup, or what it has in braces if that is
no markup, and otherwise a fragment. -/
def body : List Value → Value
  | [child] =>
    if child.isA .jsxExpressionContainer && !(child.content "expression").isJsx then
      child.content "expression"
    else if child.isJsx then .node (.fragment [child])
    else child
  | items => .node (.fragment items)

/-- The function that an element makes of its body and of the variable that it binds. -/
def function (element : Value) : Value :=
  .node (.arrow (expression element "var") (body (children element)))

/-- The conditional expression that a chain stands for. -/
def chain : List Value → Value
  | [] => .node .nullLiteral
  | element :: later =>
    if element.construct? = some .otherwise then body (children element)
    else .node (.conditional (expression element "test") (body (children element)) (chain later))

/-- The expression that an element stands for, together with the branches that continue it. -/
def expansion? (element : Value) (later : List Value) : Option Value :=
  match element.construct? with
  | some .loop =>
    some (.node (.call (.node (.member (expression element "of") "map")) (function element)))
  | some .binding => some (.node (.call (function element) (expression element "value")))
  | some .whenTrue => some (chain (element :: later))
  | some .otherwiseWhen | some .otherwise | none => none

/-- An expression in braces, with a fragment around it unless it stands in markup. -/
def wrap (inMarkup : Bool) (expression : Value) : Value :=
  let container := Value.node (.container expression)
  if inMarkup then container else .node (.fragment [container])

/-- What takes the place of a node in a slot, if the branches `later` continue it. -/
def single (inMarkup : Bool) (element : Value) (later : List Value) : Value :=
  match expansion? element later with
  | some expression => wrap inMarkup expression
  | none => if element.isGuardStatement then .node .emptyStatement else element

/-! ### Lists -/

/-- The length of the longest beginning of a list that is made of branches with `$else-if` and,
behind them, at most one with `$else`. -/
def run : List Value → Nat
  | [] => 0
  | item :: rest =>
    match item.construct? with
    | some .otherwiseWhen => run rest + 1
    | some .otherwise => 1
    | _ => 0

/-- The branches that continue an item: those of the run behind it, if it opens a chain. -/
def taken (item : Value) (rest : List Value) : Nat :=
  if item.construct? = some .whenTrue then run rest else 0

/-- What takes the place of the items of a list. -/
def items (inMarkup : Bool) : List Value → List Value
  | [] => []
  | item :: rest =>
    single inMarkup item (rest.take (taken item rest))
      :: items inMarkup (rest.drop (taken item rest))
termination_by list => list.length
decreasing_by
  rw [List.length_drop, List.length_cons]
  omega

end Desugar

/-! ### Trees -/

mutual

/-- A node with all of its slots desugared. -/
def Node.desugar : Node → Node
  | ⟨kind, fields, origin⟩ =>
    ⟨kind, Node.desugarFields (kind.isMarkup.toOption.getD false) fields, origin⟩

/-- The fields of a node that is markup or not. -/
def Node.desugarFields (inMarkup : Bool) : List (String × Value) → List (String × Value)
  | [] => []
  | (name, v) :: rest => (name, v.desugar inMarkup) :: Node.desugarFields inMarkup rest

/-- The content of a field of a node that is markup or not. -/
def Value.desugar (inMarkup : Bool) : Value → Value
  | .scalar s => .scalar s
  | .record members => .record members
  | .list items => .list (Desugar.items inMarkup (Value.desugarItems items))
  | .node n => Desugar.single inMarkup (.node n.desugar) []

/-- The items of a list, with the slots of each desugared. -/
def Value.desugarItems : List Value → List Value
  | [] => []
  | .node n :: rest => .node n.desugar :: Value.desugarItems rest
  | .scalar s :: rest => .scalar s :: Value.desugarItems rest
  | .record members :: rest => .record members :: Value.desugarItems rest
  | .list items :: rest => .list items :: Value.desugarItems rest

end

end JsxControl
