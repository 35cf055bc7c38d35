import JsxControl.Fault

/-!
# Reading documents

A document may hold anything anywhere, so each way to look into a value says what is wrong where the
value is not of the form it needs.
-/

namespace JsxControl.Json

/-- The member of a record that has to be there. -/
def member (record : Json) (name : String) : Except Fault Json :=
  match record with
  | .record members =>
    match Entries.get? members name with
    | some v => .ok v
    | none => .error (.noMember name)
  | _ => .error .notRecord

/-- What a value is made of when it is gone through: the items of a list, the characters of a text,
the names of a record's members. -/
def parts : Json → Except Fault (List Json)
  | .list items => .ok items
  | .text s => .ok (s.toList.map fun c => .text (String.singleton c))
  | .record members => .ok (members.map fun member => .text member.1)
  | _ => .error .notIterable

/-- The part of a value at a place counted from zero; the members of a record have none. -/
def nth (json : Json) (i : Nat) : Except Fault Json :=
  match json with
  | .record _ => .error (.noMember (toString i))
  | json => do
    match (← json.parts)[i]? with
    | some part => return part
    | none => .error .outOfRange

/-- The integer that a value has to be. -/
def toInt (json : Json) : Except Fault Int :=
  match json.int? with
  | some n => .ok n
  | none => .error .notNumber

/-- The position or length that a value has to be: an integer of 64 bits. -/
def toSize (json : Json) : Except Fault Int := do
  let n ← json.toInt
  if -0x8000000000000000 ≤ n ∧ n < 0x8000000000000000 then return n else .error .tooLarge

/-- The number that comes after a number. -/
def next (json : Json) : Except Fault Json :=
  match json with
  | .float x => .ok (.float x.next)
  | json => do return .int ((← json.toInt) + 1)

end JsxControl.Json
