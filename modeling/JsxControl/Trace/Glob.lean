/-!
# Wildcards

Patterns for names: `*` stands for any characters, `?` for one, and `[...]` for one of a set. A set
lists characters and ranges and is negated by a `!` in front; a `]` that comes first is a member of
the set. A `[` that no `]` closes stands for itself.
-/

namespace JsxControl.Glob

/-- A part of a pattern. -/
inductive Part
  /-- Any number of characters. -/
  | any
  /-- One character, whichever it is. -/
  | one
  /-- This character. -/
  | char (c : Char)
  /-- One character that lies in one of the ranges, or in none of them if the set is negated. -/
  | oneOf (negated : Bool) (ranges : List (Char × Char))
  deriving DecidableEq, Repr

/-! ### Sets -/

/-- The pieces of the inside of a set between the hyphens that make ranges. The next `held`
characters are no such hyphens: the first character of the set, and both the end of a range and the
character behind it. A hyphen at the very end stands for itself. -/
def pieces (hand : List Char) (held : Nat) : List Char → List (List Char)
  | [] => [hand]
  | c :: rest =>
    if held = 0 ∧ c = '-' then
      if rest.isEmpty then [hand ++ ['-']] else hand :: pieces [] 2 rest
    else
      pieces (hand ++ [c]) (held - 1) rest

/-- Takes out the ranges that run backwards, ends included: such a range is empty. -/
def dropBackward : List (List Char) → List (List Char)
  | [] => []
  | piece :: rest =>
    match dropBackward rest with
    | [] => [piece]
    | next :: more =>
      match piece.getLast?, next.head? with
      | some first, some last =>
        if last < first then (piece.dropLast ++ next.drop 1) :: more else piece :: next :: more
      | _, _ => piece :: next :: more

/-- The characters of a piece as ranges of one. -/
def singles (piece : List Char) : List (Char × Char) := piece.map fun c => (c, c)

/-- The members of a set from its pieces: each piece is joined to the next by the range from its
last character to the first one of the next. A hyphen with nothing in front stands for itself. -/
def members : List (List Char) → List (Char × Char)
  | [] => []
  | [piece] => singles piece
  | piece :: next :: rest =>
    match piece.getLast?, next with
    | some first, last :: others =>
      singles piece.dropLast ++ (first, last) :: members (others :: rest)
    | none, _ => ('-', '-') :: members (next :: rest)
    | some _, [] => singles piece ++ members ([] :: rest)
termination_by ps => ps.length

/-- The part that a set with the given inside makes. -/
def setPart (inside : List Char) : Part :=
  let held := if inside.head? = some '!' then 2 else 1
  match dropBackward (pieces [] held inside) with
  | ('!' :: piece) :: rest => .oneOf true (members (piece :: rest))
  | ps => .oneOf false (members ps)

/-- The inside of the set that is opened in front of the given characters, if it is closed. -/
def setInside? (cs : List Char) : Option (List Char) :=
  let bang := if cs.head? = some '!' then 1 else 0
  let bracket := if (cs.drop bang).head? = some ']' then 1 else 0
  let start := cs.take (bang + bracket)
  let rest := cs.drop (bang + bracket)
  if rest.contains ']' then some (start ++ rest.takeWhile (· ≠ ']')) else none

/-! ### Patterns -/

/-- The parts of a pattern behind its first `skip` characters. -/
def parse (skip : Nat) : List Char → List Part
  | [] => []
  | c :: cs =>
    match skip with
    | skip + 1 => parse skip cs
    | 0 =>
      if c = '*' then .any :: parse 0 cs
      else if c = '?' then .one :: parse 0 cs
      else if c = '[' then
        match setInside? cs with
        | some inside => setPart inside :: parse (inside.length + 1) cs
        | none => .char '[' :: parse 0 cs
      else .char c :: parse 0 cs

/-- The parts of a pattern. -/
def ofString (pattern : String) : List Part := parse 0 pattern.toList

/-- Whether a part that stands for one character stands for this one. -/
def Part.takes : Part → Char → Bool
  | .any, _ => false
  | .one, _ => true
  | .char d, c => c = d
  | .oneOf negated ranges, c => (ranges.any fun range => range.1 ≤ c && c ≤ range.2) != negated

/-- Whether some end of a text, all of it or none included, has a property. -/
def someEnd (p : List Char → Bool) : List Char → Bool
  | [] => p []
  | c :: cs => p (c :: cs) || someEnd p cs

/-- Whether a text is one that the parts stand for together. -/
def accepts : List Part → List Char → Bool
  | [], cs => cs.isEmpty
  | .any :: parts, cs => someEnd (accepts parts) cs
  | part :: parts, cs =>
    match cs with
    | [] => false
    | c :: cs => part.takes c && accepts parts cs

end JsxControl.Glob
