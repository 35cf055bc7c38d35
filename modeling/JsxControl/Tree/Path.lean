import JsxControl.Index
import JsxControl.Tree.Access
import JsxControl.Tree.OfJson
import JsxControl.Tree.ToJson

/-!
# Paths into trees

A path leads from a tree down to a part of it, by names of fields and by positions. Under the names
`type`, `loc`, `range` and `extra`, and under those of its notes, a node of a known kind gives what
is known of it beside its fields. Some of these parts are no values of the tree.
-/

namespace JsxControl

/-- One step down into a part: to a field of a node, or to an item of a list or a text. The item may
be asked for by anything; only integers are positions. -/
inductive PathStep
  | field (name : String)
  | item (index : Json)

/-- What a path can lead to: a value of the tree, the range of a node, or its location. -/
inductive Part
  | value (v : Value)
  | range (start stop : Json)
  | place (l : Location)
  deriving Inhabited

/-- A document as a value in which records with a type tag are no nodes. -/
def Value.ofPlainJson : Json → Value
  | .scalar s => .scalar s
  | .list items => .list (ofItems items)
  | .record members => .record members
where
  /-- The items of a list as values. -/
  ofItems : List Json → List Value
    | [] => []
    | item :: rest => Value.ofPlainJson item :: ofItems rest

/-! ### Parts of nodes -/

namespace Node

/-- What is known of a node of a known kind under a name that is no field of it. -/
def datum (n : Node) (name : String) : Except Fault Part :=
  match n.origin.note? name with
  | some note => .value <$> Value.ofJson note
  | none =>
    if name = "type" then .ok (.value (.scalar n.kind.tag))
    else if name = "extra" then .ok (.value (.record n.origin.extra))
    else if name = "range" then
      .ok (match n.origin.range with
        | some (start, stop) => .range start stop
        | none => .value .null)
    else if name = "loc" then
      .ok (match n.origin.loc with
        | some l => .place l
        | none => .value .null)
    else .error (.noField name)

/-- The part of a node under a name. -/
def get (n : Node) (name : String) : Except Fault Part :=
  match Entries.get? n.fields name with
  | some v => .ok (.value v)
  | none => if n.kind.isOther then .error (.noMember name) else n.datum name

/-- Stores a value under a name. An unknown kind takes up new fields behind those it has, while a
known kind has the fields of its kind and no others: what is stored under another name is a note. -/
def set (n : Node) (name : String) (v : Value) : Node :=
  if n.kind.isOther || (Entries.get? n.fields name).isSome then
    { n with fields := Entries.put name v n.fields }
  else
    { n with origin.notes := Entries.put name v.toJson n.origin.notes }

/-- Whether something can be stored under a name. The type of a node of a known kind is fixed. -/
def admits (n : Node) (name : String) : Bool := n.kind.isOther || name ≠ "type"

end Node

/-! ### Parts of values -/

/-- The item of some items at a position. -/
def Index.item {α : Type} (items : List α) (index : Json) : Except Fault α := do
  match (Index.resolve? items.length (← index.toInt)).bind (items[·]?) with
  | some item => return item
  | none => .error .outOfRange

namespace Value

/-- The member of a record that an index names. -/
def memberAt (members : List (String × Json)) (index : Json) : Except Fault Value :=
  match index with
  | .text name =>
    match Entries.get? members name with
    | some json => .ok (ofPlainJson json)
    | none => .error (.noMember name)
  | .scalar s => .error (.noMember s.shown)
  | _ => .error .notKey

/-- The item of a value at an index. -/
def itemAt (v : Value) (index : Json) : Except Fault Value :=
  match v with
  | .list items => Index.item items index
  | .text s => do return .text (String.singleton (← Index.item s.toList index))
  | .record members => memberAt members index
  | _ => .error .notIterable

/-- The part of a value that one step leads to. -/
def child (v : Value) : PathStep → Except Fault Part
  | .field name =>
    match v with
    | .node n => n.get name
    | _ => .error .notNode
  | .item index => .value <$> v.itemAt index

/-- The value with the part that one step leads to replaced. -/
def setChild (v : Value) (step : PathStep) (content : Value) : Value :=
  match step, v with
  | .field name, .node n => .node (n.set name content)
  | .item index, .list items =>
    match index.int?.bind (Index.resolve? items.length) with
    | some k => .list (items.set k content)
    | none => v
  | _, _ => v

end Value

/-! ### Following a path -/

namespace Part

/-- The part that one step leads to. -/
def child (p : Part) (step : PathStep) : Except Fault Part :=
  match p, step with
  | .value v, step => v.child step
  | .range start stop, .item index =>
    .value <$> Value.ofPlainJson <$> Index.item [start, stop] index
  | .place _, .item _ => .error .notIterable
  | _, .field _ => .error .notNode

/-- The part with what one step leads to replaced. Only values can be changed. -/
def setChild (p : Part) (step : PathStep) (content : Part) : Part :=
  match p, content with
  | .value v, .value content => .value (v.setChild step content)
  | p, _ => p

/-- The part that a path leads to. -/
def follow (p : Part) : List PathStep → Except Fault Part
  | [] => .ok p
  | step :: rest => do (← p.child step).follow rest

/-- Changes what a path leads to, and gives what the change gives. -/
def changeAt {α : Type} (change : Part → Except Fault (α × Part)) (p : Part) :
    List PathStep → Except Fault (α × Part)
  | [] => change p
  | step :: rest => do
    let (result, content) ← changeAt change (← p.child step) rest
    return (result, p.setChild step content)

/-- The document of a part. A location by itself has none. -/
def document : Part → Except Fault Json
  | .value v => v.document
  | .range start stop => .ok (.list [start, stop])
  | .place _ => .error .notRecord

/-- A part as a value of a tree. -/
def toValue : Part → Value
  | .value v => v
  | .range start stop => .list [.ofPlainJson start, .ofPlainJson stop]
  | .place l => .ofPlainJson l.toJson

/-! ### Changes -/

/-- Stores what a document describes in a node, under a name. -/
def store (name : String) (content : Json) (p : Part) : Except Fault (Unit × Part) :=
  match p with
  | .value (.node n) => do
    let v ← Value.ofJson content
    if n.admits name then return ((), .value (.node (n.set name v)))
    else .error (.noField name)
  | _ => .error .notNode

/-- Puts what a document describes into a list, at the gap that an index names, and gives the new
length. -/
def insert (index content : Json) (p : Part) : Except Fault (Nat × Part) :=
  match p with
  | .value (.list items) => do
    let v ← Value.ofJson content
    let k := Index.gap items.length (← index.toSize)
    return (items.length + 1, .value (.list (items.take k ++ v :: items.drop k)))
  | _ => .error .notNode

/-- Takes an item out of a list, or a member out of a record, and gives the new length. -/
def remove (index : Json) (p : Part) : Except Fault (Nat × Part) :=
  match p with
  | .value (.list items) => do
    match Index.resolve? items.length (← index.toInt) with
    | some k => return (items.length - 1, .value (.list (items.eraseIdx k)))
    | none => .error .outOfRange
  | .value (.record members) => do
    let _ ← Value.memberAt members index
    let kept := members.filter fun member => member.1 ≠ index.shown
    return (kept.length, .value (.record kept))
  | _ => .error .notIterable

end Part

end JsxControl
