import JsxControl.Entries
import JsxControl.Tree.Kind

/-!
# Trees

A tree is a value that may hold nodes. A node has a kind, fields in a fixed order, and an origin:
where it was read and what was read with it. The fields of a node of a known kind are those of
`Kind.layout`, in that order; a node of another kind has whatever fields it was given.

The type holds malformed trees as well. A field may hold anything that a document can hold, because
input comes from other programs and faults in it have to be met where they matter.
-/

namespace JsxControl

/-- A point of a source text. Lines count from one and columns from zero; the offset, counted in
characters from the start, is null if it is not known. The document decides what a coordinate is. -/
structure Position where
  line : Json
  column : Json
  offset : Json := .null

/-- A stretch of a source text, from `start` to just before `stop`. -/
structure Location where
  start : Position
  stop : Position

/-- What is known of a node beside its fields: its location, its range of offsets, and the members
of its document that are neither fields nor location data. A node of a known kind can be given notes
later, under names that are no fields of it; a note named `loc`, `range` or `extra` counts instead
of what the node was read with. Nodes made by the library have none of all this. -/
structure Origin where
  loc : Option Location := none
  range : Option (Json × Json) := none
  extra : List (String × Json) := []
  notes : List (String × Json) := []
  deriving Inhabited

mutual

/-- The content of a field: a scalar, a list, a record without a type tag, or a node. -/
inductive Value
  | scalar (s : Scalar)
  | list (items : List Value)
  | record (members : List (String × Json))
  | node (n : Node)

/-- A node of a tree. -/
structure Node where
  kind : Kind
  fields : List (String × Value)
  origin : Origin := {}

end

instance : Inhabited Value := ⟨.scalar .null⟩

instance : Inhabited Node := ⟨⟨.program, [], {}⟩⟩

instance : Coe Node Value := ⟨.node⟩

namespace Value

@[match_pattern] abbrev null : Value := .scalar .null
@[match_pattern] abbrev bool (b : Bool) : Value := .scalar (.bool b)
@[match_pattern] abbrev int (n : Int) : Value := .scalar (.int n)
@[match_pattern] abbrev text (s : String) : Value := .scalar (.text s)

/-- The node that a value is, if it is one. -/
def node? : Value → Option Node
  | .node n => some n
  | _ => none

/-- Whether a value is the null scalar. -/
def isNull : Value → Bool
  | .null => true
  | _ => false

/-- Whether a value is a node of the given kind. -/
def isA (kind : Kind) : Value → Bool
  | .node n => n.kind = kind
  | _ => false

/-- Whether a flag is set: only null, false, zero and what is empty count as unset. -/
def isSet : Value → Bool
  | .scalar .null => false
  | .scalar (.bool b) => b
  | .scalar (.int n) => n ≠ 0
  | .scalar (.float x) => x.significand ≠ 0
  | .scalar (.text s) => !s.isEmpty
  | .list items => !items.isEmpty
  | .record members => !members.isEmpty
  | .node _ => true

end Value

end JsxControl
