import JsxControl.Expand.Expansion
import JsxControl.Expand.Settled

/-!
# The expansion of all constructs in a tree

Every node is settled after its children. A pseudo-element is then replaced by its expansion, and a
statement that checks for one is disarmed. A list is settled from left to right; a `$if` takes the
branches that directly follow it, which are settled with it and are passed over afterwards.
-/

namespace JsxControl

namespace Expand

/-- How many of the items continue a chain: branches with `$else-if` and, behind them, one with
`$else`. -/
def runLength : List Value → Except Fault Nat
  | [] => .ok 0
  | item :: rest => do
    if ← Construct.otherwiseWhen.isTagOf item then return (← runLength rest) + 1
    return if ← Construct.otherwise.isTagOf item then 1 else 0

/-- What takes the place of a node whose children are settled, if anything does. A pseudo-element
gives way to its expansion with the collected branches, and a statement that checks for one to an
empty statement. -/
def leave (traced : Bool) (holder : Value) (node : Node) (construct? : Option Construct)
    (later : List Value) : Settled (Option Value) :=
  let element := Value.node node
  match construct? with
  | some c =>
    .orStop (if traced then c.announcement element later else .ok none) none fun line? =>
      (Settled.say () (line?.toList.map (TraceLine.mk .steps))).andThen (fun _ => none) fun _ =>
        .orStop (c.expand holder element later) none fun expansion => .done (some expansion)
  | none =>
    if node.kind = .expressionStatement then
      .orStop (node.field "expression" >>= Value.isReferenceGuard) none fun isGuard =>
        if isGuard then
          .orStop (if traced then some <$> element.source else .ok none) none fun text? =>
            .say (some (.node .emptyStatement))
              (text?.toList.map fun text => ⟨.steps, "Disabling " ++ text.shown⟩)
        else
          .done none
    else
      .done none

/-- What takes the place of a node where no siblings can follow it. -/
def leaveAlone (traced : Bool) (holder : Value) (node : Node) : Settled (Option Value) :=
  .orStop (Construct.ofValue? (.node node)) none fun construct? =>
    leave traced holder node construct? []

end Expand

open Expand

mutual

/-- A node whose children are settled, itself not yet expanded. -/
def Node.settle (traced : Bool) : Node → Settled Node
  | ⟨kind, fields, origin⟩ =>
    (Node.settleFields traced (.node ⟨kind, fields, origin⟩) fields).map (⟨kind, ·, origin⟩)

/-- The fields of a node, settled one after the other. -/
def Node.settleFields (traced : Bool) (holder : Value) :
    List (String × Value) → Settled (List (String × Value))
  | [] => .done []
  | (name, v) :: rest =>
    (Value.settle traced holder v).andThen (fun v => (name, v) :: rest) fun v =>
      (Node.settleFields traced holder rest).map ((name, v) :: ·)

/-- The content of a field. -/
def Value.settle (traced : Bool) (holder : Value) : Value → Settled Value
  | .scalar s => .done (.scalar s)
  | .record members => .done (.record members)
  | .list items => (Value.settleItems traced holder 0 items).map .list
  | .node n =>
    (n.settle traced).andThen .node fun n =>
      (leaveAlone traced holder n).map (·.getD (.node n))

/-- The items of a list behind the first `taken`, which a chain has claimed. -/
def Value.settleItems (traced : Bool) (holder : Value) (taken : Nat) :
    List Value → Settled (List Value)
  | [] => .done []
  | item :: rest =>
    match taken with
    | taken + 1 => Value.settleItems traced holder taken rest
    | 0 =>
      match item with
      | .scalar s => (Value.settleItems traced holder 0 rest).map (.scalar s :: ·)
      | .record members => (Value.settleItems traced holder 0 rest).map (.record members :: ·)
      | .list items => (Value.settleItems traced holder 0 rest).map (.list items :: ·)
      | .node n =>
        (n.settle traced).andThen (.node · :: rest) fun n =>
          .orStop (Construct.ofValue? (.node n)) (.node n :: rest) fun construct? =>
            .orStop (if construct? = some .whenTrue then runLength rest else .ok 0)
                (.node n :: rest) fun run =>
              (Value.settleBranches traced run rest).andThen (fun _ => .node n :: rest.drop run)
                fun later =>
                  (leave traced holder n construct? later).andThen
                    (fun _ => .node n :: rest.drop run) fun v? =>
                      (Value.settleItems traced holder run rest).map (v?.getD (.node n) :: ·)

/-- The first `run` items of a list as the branches of a chain: the children of each are settled. -/
def Value.settleBranches (traced : Bool) (run : Nat) : List Value → Settled (List Value)
  | [] => .done []
  | item :: rest =>
    match run with
    | 0 => .done []
    | run + 1 =>
      match item with
      | .node n =>
        (n.settle traced).andThen (fun _ => []) fun n =>
          (Value.settleBranches traced run rest).map (.node n :: ·)
      | .scalar _ => Value.settleBranches traced run rest
      | .record _ => Value.settleBranches traced run rest
      | .list _ => Value.settleBranches traced run rest

end

end JsxControl
