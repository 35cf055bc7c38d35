import JsxControl.Traversal.Basic

/-!
# Traversal by rules

A visitor that notes down every visit and applies to the visited node the first of some rules that
fits it.
-/

namespace JsxControl.Traversal

/-- What a rule does to the node it fits. Rules that change siblings do nothing to a node that has
none. What is put into the tree is given as a document, which is read whenever the rule is applied.
-/
inductive Action
  | replace (content : Json)
  | revisit
  | cut
  | drop
  | append (content : Json)

/-- A rule fits nodes of one type tag or of all, and of one name or of all; null is the name of
nodes that have none. -/
structure Rule where
  tag? : Option Json
  name? : Option Json
  action : Action

/-- What is noted down of a visit. Parent, key, index and the number of siblings are null where
there is none. -/
structure Sighting where
  tag : Scalar
  name : Scalar
  parentTag : Scalar
  key : Scalar
  index : Scalar
  siblingCount : Scalar
  deriving DecidableEq

/-- The name of a node, if it has a field for one and that is a text. -/
def nameOf (n : Node) : Scalar :=
  match n.field "name" with
  | .ok (.text s) => .text s
  | _ => .null

namespace Visit

/-- The siblings of a visited node, itself among them. -/
def siblings? (visit : Visit) : Option (List Value) := visit.slot?.bind (·.siblings?)

/-- The notes on a visit. -/
def sighting (visit : Visit) : Sighting where
  tag := visit.node.kind.tag
  name := nameOf visit.node
  parentTag := (visit.slot?.map (·.parent.kind.tag)).getD .null
  key := (visit.slot?.map fun slot => .text slot.key).getD .null
  index := ((visit.slot?.bind (·.index?)).map fun i => .int i).getD .null
  siblingCount := (visit.siblings?.map fun siblings => .int siblings.length).getD .null

end Visit

namespace Rule

/-- Whether what a rule asks for counts as equal to a scalar. -/
def asksFor (asked : Json) (s : Scalar) : Bool :=
  match asked with
  | .scalar t => t.same s
  | _ => false

/-- Whether a rule fits a node. -/
def fits (rule : Rule) (n : Node) : Bool :=
  rule.tag?.all (asksFor · n.kind.tag) && rule.name?.all (asksFor · (nameOf n))

/-- The edit that an action makes at a visited node. -/
def edit (action : Action) (visit : Visit) : Except Fault Edit :=
  match action, visit.siblings? with
  | .replace content, _ => do return { replacement? := some (← Value.ofJson content) }
  | .revisit, _ => .ok { again := true }
  | .cut, some siblings => .ok { cut := siblings.length }
  | .drop, some _ => .ok { drop := true }
  | .append content, some _ => do return { added := [← Value.ofJson content] }
  | _, none => .ok {}

/-- The visitor of some rules. -/
def visitor (rules : List Rule) : Visitor (List Sighting) := fun visit seen => do
  let seen := seen ++ [visit.sighting]
  match rules.find? (·.fits visit.node) with
  | some rule => return (← edit rule.action visit, seen)
  | none => return ({}, seen)

end Rule

end JsxControl.Traversal
