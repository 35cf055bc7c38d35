import JsxControl.Index
import JsxControl.Text.Split
import JsxControl.Tree.Origin

/-!
# Complaints

Where a complaint is placed and how it is shown: on one line, or under the lines of the source that
it is about, with carets below the columns at fault.
-/

namespace JsxControl

/-! ### Places -/

/-- The location with the offsets of a range, if there is a range. -/
def Location.withOffsets (l : Location) : Option (Json × Json) → Location
  | none => l
  | some (start, stop) => { l with start.offset := start, stop.offset := stop }

/-- The place that a node's origin tells of. -/
def Origin.place? (o : Origin) : Except Fault (Option Location) := do
  match ← o.location with
  | some l => return some (l.withOffsets (← o.offsets))
  | none => return none

/-- The place of the first located node among some values. -/
def Location.firstOf : List Value → Except Fault (Option Location)
  | [] => .ok none
  | .node n :: rest => do
    match ← n.origin.place? with
    | some place => return some place
    | none => firstOf rest
  | _ :: rest => firstOf rest

/-- The place of the innermost located node of a context, which leads from the outermost node down
to the one at fault. -/
def Location.ofContext (context : List Value) : Except Fault (Option Location) :=
  firstOf context.reverse

/-- The fault of markup that breaks a rule, placed at the innermost located node of the context. -/
def Fault.complain (rule : Rule) (message : String) (context : List Value) : Fault :=
  match Location.ofContext context with
  | .ok place => .complaint { rule, message, place }
  | .error fault => fault

/-! ### Showing a complaint -/

/-- The text `line:column` of a point; columns are shown counting from one. -/
def Position.text (p : Position) : Except Fault String := do
  return p.line.shown ++ ":" ++ (← p.column.next).shown

namespace Complaint

/-- A complaint on one line, behind the point where its place starts. -/
def text (c : Complaint) : Except Fault String :=
  match c.place with
  | some place => do return (← place.start.text) ++ ": " ++ c.message
  | none => .ok c.message

/-- The lines of a source text. -/
def linesOf (source : String) : List String :=
  (Text.splitAt '\n' source.toList).map String.ofList

/-- The line that a stretch reaches to; null stands for the last line. -/
def lastLine (lines : List String) : Json → Except Fault Int
  | .null => .ok lines.length
  | line => line.toInt

/-- The number of columns from a column to another of the same line, but at least one. Only a
stretch of less than one column may end at a fraction. -/
def columnsTo (column : Int) : Json → Except Fault Int
  | .float x => if x.floor < column + 1 then .ok 1 else .error .notNumber
  | stop => do return max ((← stop.toInt) - column) 1

/-- Whether a stretch of source text ends on the line on which it starts. -/
def onOneLine (place : Location) : Bool :=
  place.start.line.int? = place.stop.line.int?

/-- The line of carets under the line on which a place starts. A place that goes on to another line
is marked to the end of its first one. -/
def caretLine (lines : List String) (place : Location) : Except Fault String := do
  let carets ←
    if onOneLine place then
      columnsTo (← place.start.column.toInt) place.stop.column
    else
      let index := (← place.start.line.toInt) - 1
      match (Index.resolve? lines.length index).bind (lines[·]?) with
      | some line => pure (max (line.length - (← place.start.column.toInt)) 1)
      | none => .error .outOfRange
  let blanks ← place.start.column.toSize
  let carets ← (Json.int carets).toSize
  return String.ofList (List.replicate blanks.toNat ' ' ++ List.replicate carets.toNat '^')

/-- A complaint under the lines of the source that its place covers. -/
def render (c : Complaint) (source filename : String) : Except Fault String :=
  match c.place with
  | none => .ok ("Rewrite error in " ++ filename ++ ":\n" ++ c.message)
  | some place => do
    let heading := "Rewrite error on line " ++ filename ++ ":" ++ (← place.start.text) ++ ":\n"
    let lines := linesOf source
    let first := (← place.start.line.toInt) - 1
    let quoted := Index.slice lines first (← lastLine lines place.stop.line)
    let carets ← caretLine lines place
    return heading ++ "\n".intercalate quoted ++ "\n" ++ carets ++ "\n" ++ c.message

end Complaint

end JsxControl
