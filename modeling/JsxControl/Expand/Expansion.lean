import JsxControl.Expand.Attributes
import JsxControl.Expand.Construct
import JsxControl.Expand.Replacement

/-!
# Expansion of a single construct

    <$for var={x} of={e}>...</$for>          e.map((x) => body)
    <$let var={x} value={e}>...</$let>       ((x) => body)(e)
    <$if test={a}>...</$if><$else>...</$else>  a ? body : body

An expansion is a function of the element, of the branches collected for it, and of the node that
holds it. Nothing is expanded inside: whatever stands in the element is taken as it is.
-/

namespace JsxControl

namespace Expand

/-! ### Constructs that bind a variable -/

/-- The expansion of an element that binds the variable `var` in its body and holds one expression
more, in the attribute `held`. The function that its children become and that expression are put
together by `join`. -/
def binder (held : String) (join : Value → Value → Node) (holder element : Value) :
    Except Fault Value := do
  let opening ← element.field "opening_element"
  let context := [holder, element, opening]
  let attributes ← Attributes.ofOpening opening
  let bound ← Attributes.required opening attributes (.text "var") "name" context
  let expression ← Attributes.required opening attributes (.text held) "expression" context
  Attributes.check opening attributes [.text "var", .text held] context
  let param ← pattern bound (context ++ (Attributes.get? attributes (.text "var")).toList)
  let result ← body (← element.field "children")
  wrap (.node (join (.node (.arrow param result)) expression)) holder

/-- The expansion of `$for`: the body is mapped over the items. -/
def loop : Value → Value → Except Fault Value :=
  binder "of" fun function items => .call (.node (.member items "map")) function

/-- The expansion of `$let`: the body is called with the value. -/
def binding : Value → Value → Except Fault Value :=
  binder "value" fun function value => .call function value

/-! ### Chains of branches -/

/-- One branch of a chain in front of the expression that the later branches make. -/
def branch (holder element alternate : Value) : Except Fault Value := do
  let opening ← element.field "opening_element"
  let context := [holder, element, opening]
  let attributes ← Attributes.ofOpening opening
  Attributes.check opening attributes [.text "test"] context
  match Construct.ofName? (← (← element.tagName).key) with
  | some .whenTrue | some .otherwiseWhen =>
    let test ← Attributes.required opening attributes (.text "test") "expression" context
    let consequent ← body (← element.field "children")
    return .node (.conditional test consequent alternate)
  | some .otherwise =>
    match Attributes.get? attributes (.text "test") with
    | some attr =>
      let text ← opening.source
      .error (.complain .malformedTerminalBranch ("Unexpected test=... in " ++ text.shown)
        (context ++ [attr]))
    | none => body (← element.field "children")
  | _ =>
    let text ← opening.source
    .error (.complain .unreachableConstruct
      ("Bad element " ++ text.shown ++ " in if-chain") context)

/-- The expression of a chain; the last branch is judged first, and without an `$else` the chain
ends in null. -/
def branches (holder : Value) : List Value → Except Fault Value
  | [] => .ok (.node .nullLiteral)
  | element :: later => do
    branch holder element (← branches holder later)

/-- The expansion of a chain. -/
def chain (holder : Value) (elements : List Value) : Except Fault Value := do
  wrap (← branches holder elements) holder

/-- A branch that no chain has claimed. -/
def orphan (holder element : Value) : Except Fault Value := do
  let opening ← element.field "opening_element"
  let text ← opening.source
  .error (.complain .orphanChainContinuation
    ("Need preceding <" ++ Construct.whenTrue.name ++ "> for " ++ text.shown)
    [holder, element, opening])

end Expand

namespace Construct

/-- The expansion of a construct: `element` bears its name, and `later` are the branches collected
behind it. -/
def expand (c : Construct) (holder element : Value) (later : List Value) : Except Fault Value :=
  match c with
  | loop => Expand.loop holder element
  | whenTrue => Expand.chain holder (element :: later)
  | otherwiseWhen => Expand.orphan holder element
  | otherwise => Expand.orphan holder element
  | binding => Expand.binding holder element

/-- What a trace says before a construct is expanded; nothing is said of one that cannot be. -/
def announcement (c : Construct) (element : Value) (later : List Value) :
    Except Fault (Option String) := do
  match c with
  | loop | binding =>
    return some ("Rewriting " ++ (← (← element.field "opening_element").source).shown)
  | whenTrue =>
    let openings ← (element :: later).mapM fun e => do (← e.field "opening_element").source
    return some ("Rewriting if-chain:\n  " ++ (← Source.joined "\n  " openings))
  | otherwiseWhen | otherwise => return none

end Construct

end JsxControl
