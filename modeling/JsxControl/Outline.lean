import JsxControl.Tree.Path

/-!
# Outlines

An indented dump of a tree, one node, field or item to a line, without location data. Scalars and
records are written as in a compact document.
-/

namespace JsxControl.Outline

/-- Fields that are location data and are not shown. -/
def hidden : List String := ["type", "start", "end", "loc", "range", "extra"]

mutual

/-- The outline of a value behind the indentation `margin`. -/
def ofValue (margin : String) : Value → String
  | .scalar s => s.json ++ "\n"
  | .list items => if items.isEmpty then "[]\n" else "\n" ++ ofItems margin 0 items
  | .record members => (Json.record members).compact ++ "\n"
  | .node n => ofNode margin n

/-- The outline of a node: its kind, and then a line for each field. -/
def ofNode (margin : String) : Node → String
  | ⟨kind, fields, _⟩ => "[" ++ kind.label ++ "]\n" ++ ofFields margin fields

/-- The lines of the items of a list, numbered from `index`. -/
def ofItems (margin : String) (index : Nat) : List Value → String
  | [] => ""
  | item :: rest =>
    margin ++ "  #" ++ toString index ++ " " ++ ofValue (margin ++ "  ") item
      ++ ofItems margin (index + 1) rest

/-- The lines of the fields that are shown. -/
def ofFields (margin : String) : List (String × Value) → String
  | [] => ""
  | (name, v) :: rest =>
    (if hidden.contains name then ""
      else margin ++ "  " ++ name ++ ": " ++ ofValue (margin ++ "  ") v)
      ++ ofFields margin rest

end

/-- A point of a source text as it is displayed. -/
def pointText (p : Position) : String :=
  "Position(line=" ++ p.line.display ++ ", column=" ++ p.column.display ++ ", offset="
    ++ p.offset.display ++ ")"

/-- A location as it is displayed. -/
def placeText (l : Location) : String :=
  "SourceLocation(start=" ++ pointText l.start ++ ", end=" ++ pointText l.stop ++ ")"

/-- The outline of a part of a tree. A range is written like a document, and a location as the text
that it is displayed as. -/
def ofPart : Part → String
  | .value v => ofValue "" v
  | .range start stop => (Json.list [start, stop]).compact ++ "\n"
  | .place l => Text.quoteAscii (placeText l) ++ "\n"

end JsxControl.Outline
