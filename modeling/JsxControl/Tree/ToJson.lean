import JsxControl.Tree.FieldName
import JsxControl.Tree.Origin

/-!
# Documents from trees

A node is written as a record: its type tag, what was kept apart when it was read, its fields, and
where it was read. Of two members with one name the later counts. A note that is not of the form
that its name demands has no place in a document: `Value.toJson` leaves it out, and `Value.document`
is the document only if there is none.
-/

namespace JsxControl

/-- The document of a point; an unknown offset is left out. -/
def Position.toJson (p : Position) : Json :=
  .record ([("line", p.line), ("column", p.column)]
    ++ match p.offset with
      | .null => []
      | offset => [("offset", offset)])

/-- The document of a location. -/
def Location.toJson (l : Location) : Json :=
  .record [("start", l.start.toJson), ("end", l.stop.toJson)]

/-- The members that say where a node was read. -/
def Origin.locationMembers (o : Origin) : List (String × Json) :=
  (match o.location with
    | .ok (some loc) => [("loc", loc.toJson)]
    | _ => [])
  ++ match o.rangeItems with
    | .ok (some items) => [("range", .list items)]
    | _ => []

/-- The spelling of a field's name in documents; unknown kinds keep theirs. -/
def Kind.keyOfField (kind : Kind) (name : String) : String :=
  if kind.isOther then name else FieldName.toKey name

mutual

/-- The document of a value. -/
def Value.toJson : Value → Json
  | .scalar s => .scalar s
  | .list items => .list (Value.toJsonItems items)
  | .record members => .record members
  | .node n => n.toJson

/-- The document of a node. -/
def Node.toJson : Node → Json
  | ⟨kind, fields, origin⟩ =>
    .record (Entries.putAll [("type", .scalar kind.tag)]
      (origin.extraMembers.toOption.getD [] ++ Value.toJsonFields kind fields
        ++ origin.locationMembers))

/-- The documents of the items of a list. -/
def Value.toJsonItems : List Value → List Json
  | [] => []
  | item :: rest => item.toJson :: Value.toJsonItems rest

/-- The fields of a node as members of its document. -/
def Value.toJsonFields (kind : Kind) : List (String × Value) → List (String × Json)
  | [] => []
  | (name, v) :: rest => (kind.keyOfField name, v.toJson) :: Value.toJsonFields kind rest

end

/-! ### Documents of trees with notes -/

mutual

/-- Fails if a note in a value has no place in a document. -/
def Value.checkNotes : Value → Except Fault Unit
  | .scalar _ => .ok ()
  | .list items => Value.checkNotesOfItems items
  | .record _ => .ok ()
  | .node n => n.checkNotes

/-- Fails if a note in a node has no place in a document. -/
def Node.checkNotes : Node → Except Fault Unit
  | ⟨_, fields, origin⟩ => do
    let _ ← origin.extraMembers
    Value.checkNotesOfFields fields
    let _ ← origin.location
    let _ ← origin.rangeItems
    return ()

/-- Fails if a note in an item of a list has no place in a document. -/
def Value.checkNotesOfItems : List Value → Except Fault Unit
  | [] => .ok ()
  | item :: rest => do
    item.checkNotes
    Value.checkNotesOfItems rest

/-- Fails if a note in a field has no place in a document. -/
def Value.checkNotesOfFields : List (String × Value) → Except Fault Unit
  | [] => .ok ()
  | (_, v) :: rest => do
    v.checkNotes
    Value.checkNotesOfFields rest

end

/-- The document of a tree, or what is wrong with a note in it. -/
def Value.document (v : Value) : Except Fault Json := do
  v.checkNotes
  return v.toJson

end JsxControl
