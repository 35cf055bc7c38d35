import JsxControl.Reading

/-!
# What is known of a node beside its fields

The location, the range and the extra members of a node, as they were read or as a note has them. A
note may be any value, so that each of these may turn out to be no such thing.
-/

namespace JsxControl

/-- Whether a document describes a node. -/
def Json.isNode : Json → Bool
  | .record members => (Entries.get? members "type").isSome
  | _ => false

namespace Origin

/-- What is noted under a name. -/
def note? (o : Origin) (name : String) : Option Json := Entries.get? o.notes name

/-- The items of a note that has to have some; a node has none. -/
def itemsOf (note : Json) : Except Fault (List Json) :=
  if note.isNode then .error .notIterable else note.parts

/-- The location of a node. No note but null can stand for one. -/
def location (o : Origin) : Except Fault (Option Location) :=
  match o.note? "loc" with
  | none => .ok o.loc
  | some .null => .ok none
  | some _ => .error (.noField "start")

/-- The range of a node as a list, which has two items unless it is a note. -/
def rangeItems (o : Origin) : Except Fault (Option (List Json)) :=
  match o.note? "range" with
  | none => .ok (o.range.map fun (start, stop) => [start, stop])
  | some .null => .ok none
  | some note => some <$> itemsOf note

/-- The two offsets that the range of a node begins with. -/
def offsets (o : Origin) : Except Fault (Option (Json × Json)) :=
  match o.note? "range" with
  | none => .ok o.range
  | some .null => .ok none
  | some note => do
    if note.isNode then .error .notIterable
    return some (← note.nth 0, ← note.nth 1)

/-- A member that is written as a pair of its name and its value. -/
def memberOf (pair : Json) : Except Fault (String × Json) := do
  match ← itemsOf pair with
  | [.text name, value] => return (name, value)
  | [_, _] => .error .notText
  | _ => .error .notPair

/-- The extra members of a node. A note may also list them as pairs. -/
def extraMembers (o : Origin) : Except Fault (List (String × Json)) :=
  match o.note? "extra" with
  | none => .ok o.extra
  | some note =>
    match note with
    | .record members => if note.isNode then .error .notIterable else .ok members
    | note => do (← itemsOf note).mapM memberOf

end Origin

end JsxControl
