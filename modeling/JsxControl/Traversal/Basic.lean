import JsxControl.Tree.Path

/-!
# Visiting every node of a tree

A traversal visits each node after all nodes in its slots, fields in order and lists from left to
right. A visitor sees the node in its slot and answers with an edit of the slot and of its siblings;
a state is handed from visit to visit.

What is put into a slot is not visited. Two edits bring the traversal to nodes that are no parts of
the tree it started with: going through a node's children again, and adding siblings at the end of
the list that is being gone through. Only these two are counted against a limit, behind which the
traversal is taken to be endless.
-/

namespace JsxControl.Traversal

/-- Where a visited node stands: in the field `key` of `parent` as it is at that time, and in its
list at `index?` if the field holds a list. -/
structure Slot where
  parent : Node
  key : String
  index? : Option Nat

/-- The list that holds the visited node, if a list does. -/
def Slot.siblings? (slot : Slot) : Option (List Value) :=
  match slot.index?, Entries.get? slot.parent.fields slot.key with
  | some _, some (.list items) => some items
  | _, _ => none

/-- A visited node; the root has no slot. -/
structure Visit where
  node : Node
  slot? : Option Slot

/-- What a visitor does to the slot of the visited node and to its list. Outside a list only the
first two count. The items that are cut are counted before any are added, and after a drop the
traversal passes over the item that comes into the node's place. -/
structure Edit where
  again : Bool := false
  replacement? : Option Value := none
  cut : Nat := 0
  added : List Value := []
  drop : Bool := false

/-- A visitor with a state; it may refuse to go on. -/
abbrev Visitor (σ : Type) := Visit → σ → Except Fault (Edit × σ)

/-- How to go through nodes that are no parts of the tree: the children of a node that is visited
again, and the items added to a list. -/
structure Beyond (σ : Type) where
  children : Node → σ → Except Fault (Node × σ)
  items : (List Value → Node) → String → List Value → List Value → σ →
    Except Fault (List Value × σ)

variable {σ : Type}

/-- The visit itself, after the children of the node. -/
def leave (visitor : Visitor σ) (beyond : Beyond σ) (visit : Visit) (state : σ) :
    Except Fault (Node × Edit × σ) := do
  let (edit, state) ← visitor visit state
  if edit.again then
    let (node, state) ← beyond.children visit.node state
    return (node, edit, state)
  else
    return (visit.node, edit, state)

mutual

/-- Visits every node below a node. -/
def children (visitor : Visitor σ) (beyond : Beyond σ) : Node → σ → Except Fault (Node × σ)
  | ⟨kind, fields, origin⟩, state => do
    let (fields, state) ← inFields visitor beyond (⟨kind, ·, origin⟩) [] fields state
    return (⟨kind, fields, origin⟩, state)

/-- Visits every node in the fields behind `before`. The function `whole` gives the node that has
the given fields. -/
def inFields (visitor : Visitor σ) (beyond : Beyond σ) (whole : List (String × Value) → Node)
    (before : List (String × Value)) :
    List (String × Value) → σ → Except Fault (List (String × Value) × σ)
  | [], state => .ok (before, state)
  | (key, v) :: rest, state => do
    let (v, state) ←
      inValue visitor beyond (fun v => whole (before ++ (key, v) :: rest)) key v state
    inFields visitor beyond whole (before ++ [(key, v)]) rest state

/-- Visits every node in the content of the field `key`. The function `whole` gives the node whose
field has the given content. -/
def inValue (visitor : Visitor σ) (beyond : Beyond σ) (whole : Value → Node) (key : String) :
    Value → σ → Except Fault (Value × σ)
  | .scalar s, state => .ok (.scalar s, state)
  | .record members, state => .ok (.record members, state)
  | .list items, state => do
    let (items, state) ←
      inItems visitor beyond (fun items => whole (.list items)) key [] 0 false [] items state
    return (.list items, state)
  | .node n, state => do
    let (n, state) ← children visitor beyond n state
    let slot := { parent := whole (.node n), key, index? := none }
    let (n, edit, state) ← leave visitor beyond ⟨n, some slot⟩ state
    return (edit.replacement?.getD (.node n), state)

/-- Visits the nodes among the items of the list in the field `key`, of which those in `before` have
been passed. The first `cut` items are gone, the next one is passed over if `skipNext` is set, and
`added` stands behind all of them. -/
def inItems (visitor : Visitor σ) (beyond : Beyond σ) (whole : List Value → Node) (key : String)
    (before : List Value) (cut : Nat) (skipNext : Bool) (added : List Value) :
    List Value → σ → Except Fault (List Value × σ)
  | [], state =>
    match added with
    | [] => .ok (before, state)
    | first :: others =>
      if skipNext then beyond.items whole key (before ++ [first]) others state
      else beyond.items whole key before added state
  | item :: rest, state =>
    match cut with
    | cut + 1 => inItems visitor beyond whole key before cut skipNext added rest state
    | 0 =>
      if skipNext then inItems visitor beyond whole key (before ++ [item]) 0 false added rest state
      else
        match item with
        | .scalar s =>
          inItems visitor beyond whole key (before ++ [.scalar s]) 0 false added rest state
        | .record members =>
          inItems visitor beyond whole key (before ++ [.record members]) 0 false added rest state
        | .list items =>
          inItems visitor beyond whole key (before ++ [.list items]) 0 false added rest state
        | .node n => do
          let (n, state) ← children visitor beyond n state
          let slot :=
            { parent := whole (before ++ .node n :: rest ++ added), key, index? := before.length }
          let (n, edit, state) ← leave visitor beyond ⟨n, some slot⟩ state
          let kept := if edit.drop then [] else [edit.replacement?.getD (.node n)]
          let added := added.drop (edit.cut - rest.length) ++ edit.added
          inItems visitor beyond whole key (before ++ kept) edit.cut edit.drop added rest state

end

/-- Going beyond the tree at most `limit` times within one another. -/
def upTo (visitor : Visitor σ) : Nat → Beyond σ
  | 0 => ⟨fun _ _ => .error .endless, fun _ _ _ _ _ => .error .endless⟩
  | limit + 1 =>
    { children := children visitor (upTo visitor limit)
      items := fun whole key before added =>
        inItems visitor (upTo visitor limit) whole key before 0 false [] added }

/-- Visits every node of a tree, the root last. Gives what the root has become, what replaces it if
something does, and the last state. -/
def run (visitor : Visitor σ) (limit : Nat) (tree : Value) (state : σ) :
    Except Fault (Node × Option Value × σ) :=
  match tree with
  | .node n => do
    let (n, state) ← children visitor (upTo visitor limit) n state
    let (n, edit, state) ← leave visitor (upTo visitor limit) ⟨n, none⟩ state
    return (n, edit.replacement?, state)
  | _ => .error .notNode

/-- Visits every node below the root of a tree. -/
def runBelow (visitor : Visitor σ) (limit : Nat) (tree : Value) (state : σ) :
    Except Fault (Node × σ) :=
  match tree with
  | .node n => children visitor (upTo visitor limit) n state
  | _ => .error .notNode

end JsxControl.Traversal
