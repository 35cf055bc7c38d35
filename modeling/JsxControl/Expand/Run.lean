import JsxControl.Expand.Pass
import JsxControl.Outline
import JsxControl.Tree.Path

/-!
# Expanding whole trees and single slots
-/

namespace JsxControl

namespace Expand

/-- Traces a tree as source text and as an outline, as far as these topics are asked for. -/
def report (asked : Topic → Bool) (word filename ending : String) (tree : Value) : Settled Value :=
  let heading := "\n" ++ word ++ " " ++ filename ++ "\n"
  .orStop (if asked .sources then some <$> tree.source else .ok none) tree fun source? =>
    .say tree
      (source?.toList.map (fun source => ⟨.sources, heading ++ source.shown ++ ending⟩)
        ++ if asked .outlines then [⟨.outlines, heading ++ Outline.ofValue "" tree⟩] else [])

/-- Settles a tree. Its root is held by nothing, so that it cannot be replaced. -/
def settleRoot (traced : Bool) (filename : String) (tree : Value) : Settled Value :=
  match tree with
  | .node n =>
    (n.settle traced).andThen .node fun n =>
      (leaveAlone traced .null n).andThen (fun _ => .node n) fun
        | some _ => .stop (.node n) (.rootReplaced n.kind filename)
        | none => .done (.node n)
  | _ => .stop tree .notNode

/-- Expands all constructs in a tree. The name of the file labels what is traced. -/
def tree (asked : Topic → Bool) (filename : String) (tree : Value) : Settled Value :=
  (report asked "OLD" filename "\n" tree).andThen id fun tree =>
    (settleRoot (asked .steps) filename tree).andThen id fun tree =>
      report asked "NEW" filename "" tree

end Expand

namespace Construct

/-- Expands an element that nothing holds, as the construct `c`. -/
def expandRoot (c : Construct) (element : Value) : Except Fault Value :=
  c.expand .null element []

/-- Expands what a node holds under a name as the construct `c`; gives the holder afterwards and
what the element became. -/
def expandField (c : Construct) (holder : Node) (name : String) :
    Except Fault (Node × Value) := do
  let expansion ← c.expand (.node holder) (← holder.get name).toValue []
  return (holder.set name expansion, expansion)

end Construct

namespace Expand

/-- The gap behind the branches that continue a chain whose first element is at a position. The
items behind a position that is counted from the end are followed to the end of the list, and from
there on from its start. -/
def chainEnd (items : List Value) (position : Int) : Except Fault Int := do
  let start := position + 1
  let behind := items.drop (Index.gap items.length start)
  return start + (← runLength (if start < 0 then behind ++ items else behind))

/-- Expands the element at a position of the list that a node holds under a name, as the construct
`c`. A `$if` takes the branches that continue it out of the list first. Gives the holder afterwards
and what the element became. -/
def itemOf (c : Construct) (holder : Node) (name : String) (items : List Value) (position : Int) :
    Except Fault (Node × Value) := do
  match Index.resolve? items.length position with
  | none => .error .outOfRange
  | some k =>
    let start := position + 1
    let stop ← if c = .whenTrue then chainEnd items position else .ok start
    let claimed := Index.slice items start stop
    let later ← (Value.settleBranches false claimed.length claimed).toExcept
    -- A chain that goes round to its own first element has settled that one as well.
    let before := Index.gap items.length start
    let settled? := if before ≤ k then later[k - before]? else none
    let element := settled?.getD (items[k]?.getD .null)
    let expansion ← c.expand (.node holder) element later
    let kept := Index.without items start stop
    match Index.resolve? kept.length position with
    | some k => return (holder.set name (.list (kept.set k expansion)), expansion)
    | none => .error .outOfRange

end Expand

namespace Construct

/-- Expands an item of what a node holds under a name as the construct `c`. -/
def expandItem (c : Construct) (holder : Node) (name : String) (index : Json) :
    Except Fault (Node × Value) := do
  let part ← holder.get name
  match part with
  | .value (.list items) => Expand.itemOf c holder name items (← index.toInt)
  | part =>
    -- Nothing but a list can give up branches, and no item of anything else is a node.
    let _ ← part.child (.item index)
    .error (if c = .whenTrue then .notIterable else .notNode)

end Construct

end JsxControl
