import JsxControl.Proofs.Desugar.Basic
import Mathlib.Algebra.BigOperators.Group.List.Basic
import Mathlib.Logic.Function.Basic

/-!
# What markup means

Markup renders to an element of a monoid, in an environment that gives each variable a value. A
semantics chooses the values and how they render, and leaves open what the constructs do not depend
on: an expression that is not taken apart may have any value, and a text or an element may render to
anything that depends on its own fields and on what its children render to.

`Semantics.denote` interprets what the constructs stand for; a construct itself is to it an element
like any other. `Semantics.meaning` says what markup with constructs in it is meant to render to.
-/

namespace JsxControl

/-- The values of expressions, what they render to, and what is left open about markup. -/
structure Semantics (V O : Type) [Monoid O] where
  /-- The value of `null`. -/
  null : V
  /-- Markup as a value. -/
  markup : O → V
  /-- A list as a value. -/
  list : List V → V
  /-- What a value renders to where it stands in braces. -/
  render : V → O
  /-- The items that a function is mapped over. -/
  items : V → List V
  /-- Whether a value counts as true. -/
  isTrue : V → Bool
  /-- The value of an expression that is not taken apart. -/
  plain : Node → (String → V) → V
  /-- What a text renders to. -/
  text : Node → O
  /-- What an element with the given opening and closing tag makes of what its children render to. -/
  element : Value → Value → (String → V) → O → O
  render_null : render null = 1
  render_markup (o : O) : render (markup o) = o
  render_list (vs : List V) : render (list vs) = (vs.map render).prod

/-- What an expression denotes: a value, a function, or the method `map` of a value. -/
inductive Denotation (V : Type)
  | value (v : V)
  | function (f : V → V)
  | mapping (items : List V)

/-- The name that an identifier bears. -/
def Value.identifierName (v : Value) : String :=
  match v.content "name" with
  | .text s => s
  | _ => ""

namespace Semantics

variable {V O : Type} [Monoid O] (S : Semantics V O)

/-! ### Expressions -/

/-- The value that an expression denotes; what denotes no value counts as null. -/
def valueOf : Denotation V → V
  | .value v => v
  | .function _ | .mapping _ => S.null

/-- The value of an expression that has no other expressions in it that count. -/
def simple (env : String → V) (n : Node) : V :=
  if n.kind = .identifier then env (Value.node n).identifierName
  else if n.kind = .literal ∧ ((Value.node n).content "value").isNull then S.null
  else S.plain n env

/-- What a call denotes: a function is applied to the argument, and the method `map` applies the
argument to every item. -/
def call : Denotation V → Denotation V → V
  | .function f, argument => f (S.valueOf argument)
  | .mapping vs, .function f => S.list (vs.map f)
  | _, _ => S.null

mutual

/-- What a node denotes. -/
def denoteNode (env : String → V) : Node → Denotation V
  | ⟨kind, fields, origin⟩ =>
    match kind, fields with
    | .memberExpression, [(_, object), (_, property), (_, computed), _] =>
      if property.identifierName = "map" ∧ computed.isSet = false then
        .mapping (S.items (S.valueOf (denote env object)))
      else .value (S.simple env ⟨kind, fields, origin⟩)
    | .callExpression, [(_, callee), (_, .list [argument]), _] =>
      .value (S.call (denote env callee) (denote env argument))
    | .arrowFunctionExpression, [(_, .list [param]), (_, body), _] =>
      .function fun v => S.valueOf (denote (Function.update env param.identifierName v) body)
    | .conditionalExpression, [(_, test), (_, consequent), (_, alternate)] =>
      .value (if S.isTrue (S.valueOf (denote env test)) then
        S.valueOf (denote env consequent) else S.valueOf (denote env alternate))
    | .jsxText, _ => .value (S.markup (S.text ⟨kind, fields, origin⟩))
    | .jsxExpressionContainer, [(_, expression)] =>
      .value (S.markup (S.render (S.valueOf (denote env expression))))
    | .jsxFragment, [_, (_, .list children), _] => .value (S.markup (renderAll env children))
    | .jsxElement, [(_, opening), (_, .list children), (_, closing)] =>
      .value (S.markup (S.element opening closing env (renderAll env children)))
    | _, _ => .value (S.simple env ⟨kind, fields, origin⟩)

/-- What a value denotes; what is no node denotes null. -/
def denote (env : String → V) : Value → Denotation V
  | .node n => denoteNode env n
  | .scalar _ | .list _ | .record _ => .value S.null

/-- What items render to, one after the other. -/
def renderAll (env : String → V) : List Value → O
  | [] => 1
  | item :: rest => S.render (S.valueOf (denote env item)) * renderAll env rest

end

/-- The value of an expression. -/
def value (env : String → V) (v : Value) : V := S.valueOf (S.denote env v)

/-- What the content of a field renders to. -/
def rendering (env : String → V) : Value → O
  | .node n => S.render (S.value env (.node n))
  | .list items => S.renderAll env items
  | .scalar _ | .record _ => 1

/-! ### Constructs -/

/-- The environment in the body of an element that binds a variable. -/
def bound (env : String → V) (element : Value) (v : V) : String → V :=
  Function.update env (Desugar.expression element "var").identifierName v

/-- The value of the expression that an attribute gives. -/
def given (env : String → V) (element : Value) (name : String) : V :=
  S.value env (Desugar.expression element name)

/-- What markup that is no construct means, by what its children mean. -/
def ordinary (env : String → V) (inner : O) (v : Value) : O :=
  if v.isA .jsxExpressionContainer then S.render (S.value env (v.content "expression"))
  else if v.isA .jsxFragment then inner
  else if v.isA .jsxElement then
    S.element (v.content "opening_element") (v.content "closing_element") env inner
  else match v with
    | .node n => S.text n
    | _ => 1

/-- What an item means, by what its children mean in an environment, and by what it has to mean if
its test fails. A branch means nothing by itself: the `$if` in front has said what it means. -/
def item (env : String → V) (inner : (String → V) → O) (alternative : O) (v : Value) : O :=
  match v.construct? with
  | some .loop => ((S.items (S.given env v "of")).map fun u => inner (bound env v u)).prod
  | some .binding => inner (bound env v (S.given env v "value"))
  | some .whenTrue => if S.isTrue (S.given env v "test") then inner env else alternative
  | some .otherwiseWhen | some .otherwise => 1
  | none => S.ordinary env (inner env) v

/-- What an item contributes to a chain in front of it whose tests have failed. -/
def branch (env : String → V) (inner : (String → V) → O) (alternative : O) (v : Value) : O :=
  match v.construct? with
  | some .otherwiseWhen => if S.isTrue (S.given env v "test") then inner env else alternative
  | some .otherwise => inner env
  | _ => 1

mutual

/-- What the children of a node mean. -/
def innerNode (env : String → V) : Node → O
  | ⟨_, fields, _⟩ =>
    match fields with
    | [_, (_, .list children), _] => meanings env children
    | _ => 1

/-- What the children of an item mean. -/
def inner (env : String → V) : Value → O
  | .node n => innerNode env n
  | .scalar _ | .list _ | .record _ => 1

/-- What items mean, one after the other. -/
def meanings (env : String → V) : List Value → O
  | [] => 1
  | v :: rest => S.item env (fun env => inner env v) (alternative env rest) v * meanings env rest

/-- What the items behind a `$if` mean if its test fails. -/
def alternative (env : String → V) : List Value → O
  | [] => 1
  | v :: rest => S.branch env (fun env => inner env v) (alternative env rest) v

end

/-- What the content of a field means. -/
def meaning (env : String → V) : Value → O
  | .node n => S.item env (fun env => S.innerNode env n) 1 (.node n)
  | .list items => S.meanings env items
  | .scalar _ | .record _ => 1

end Semantics

end JsxControl
