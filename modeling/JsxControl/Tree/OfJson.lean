import JsxControl.Tree.FieldName
import JsxControl.Tree.Layout
import JsxControl.Tree.Origin

/-!
# Trees from documents

A record with a `type` member is a node, and every other record is kept as it is. The members of a
node of a known kind that spell one of its fields become fields; the others are kept apart,
unconverted. A node of another kind keeps all its members as fields. Where a node was read from is
taken from its `loc`, and from its `range` or its `start` and `end`.
-/

namespace JsxControl

/-- A point from its document; the offset may be left out. -/
def Position.ofJson (json : Json) : Except Fault Position := do
  let line ← json.member "line"
  let column ← json.member "column"
  return { line, column, offset := (json.member "offset").toOption.getD .null }

/-- The location of a node from the members of its document. A `loc` that is not a record counts as
none. -/
def Location.ofMembers (members : List (String × Json)) : Except Fault (Option Location) :=
  match Entries.get? members "loc" with
  | some (.record loc) => do
    let start ← Position.ofJson (← (Json.record loc).member "start")
    let stop ← Position.ofJson (← (Json.record loc).member "end")
    return some { start, stop }
  | _ => .ok none

/-- The range of a node from the members of its document: its `range` unless that is null, and
otherwise its `start` and `end` if both are integers. -/
def Origin.rangeOfMembers (members : List (String × Json)) :
    Except Fault (Option (Json × Json)) := do
  match Entries.get? members "range" with
  | none | some .null =>
    match Entries.get? members "start", Entries.get? members "end" with
    | some start, some stop =>
      return if start.int?.isSome && stop.int?.isSome then some (start, stop) else none
    | _, _ => return none
  | some range =>
    match ← range.parts with
    | [start, stop] => return some (start, stop)
    | _ => .error .notPair

namespace Kind

/-- The members of a node's document that say what it is and where it was read. -/
def reservedKeys : List String := ["type", "loc", "range"]

/-- The field that a member of a document belongs to, if it belongs to one. -/
def fieldOfKey? (kind : Kind) (key : String) : Option String :=
  if reservedKeys.contains key then none
  else match kind with
    | .other _ => some key
    | kind =>
      let name := FieldName.ofKey key
      if kind.fieldNames.contains name then some name else none

/-- The members of a document that are kept apart from the fields. -/
def extraOfMembers (kind : Kind) (members : List (String × Json)) : List (String × Json) :=
  members.filter fun member =>
    !reservedKeys.contains member.1 && (kind.fieldOfKey? member.1).isNone

/-- The fields of a layout with what was given for them, or else their defaults. -/
def fill (kind : Kind) (given : List (String × Value)) :
    List FieldSpec → Except Fault (List (String × Value))
  | [] => .ok []
  | spec :: rest =>
    match (Entries.get? given spec.name).or spec.default? with
    | some v => return (spec.name, v) :: (← kind.fill given rest)
    | none => .error (.missingField kind spec.name)

/-- The fields of a node from what was given for them, later entries counting. -/
def arrange (kind : Kind) (given : List (String × Value)) :
    Except Fault (List (String × Value)) :=
  let stored := Entries.putAll [] given
  if kind.isOther then .ok stored else kind.fill stored kind.layout

end Kind

mutual

/-- The tree that a document describes. -/
def Value.ofJson : Json → Except Fault Value
  | .scalar s => .ok (.scalar s)
  | .list items => do return .list (← ofJsonItems items)
  | .record members =>
    match Entries.get? members "type" with
    | none => .ok (.record members)
    | some tag => do
      let loc ← Location.ofMembers members
      let range ← Origin.rangeOfMembers members
      match tag with
      | .scalar tag =>
        let kind := Kind.ofTag tag
        let fields ← kind.arrange (← ofJsonMembers kind members)
        return .node ⟨kind, fields, { loc, range, extra := kind.extraOfMembers members }⟩
      | _ => .error .compoundTag

/-- The items of a list, converted one by one. -/
def Value.ofJsonItems : List Json → Except Fault (List Value)
  | [] => .ok []
  | item :: rest => do
    let v ← ofJson item
    return v :: (← ofJsonItems rest)

/-- The converted members that are fields of the kind, in the order of the document. -/
def Value.ofJsonMembers (kind : Kind) : List (String × Json) → Except Fault (List (String × Value))
  | [] => .ok []
  | (key, value) :: rest =>
    match kind.fieldOfKey? key with
    | none => ofJsonMembers kind rest
    | some name => do
      let v ← ofJson value
      return (name, v) :: (← ofJsonMembers kind rest)

end

end JsxControl
