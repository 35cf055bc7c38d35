import JsxControl.Text.Printable

/-!
# Texts as parts of displayed values

A text inside a displayed list or record stands between apostrophes, or between double quotes if it
holds apostrophes and no double quote. What would not be seen on a line is escaped, by the shortest
of three forms: two, four or eight hexadecimal digits.
-/

namespace JsxControl.Text

/-- The mark that a displayed text stands between. -/
def displayMark (cs : List Char) : Char :=
  if cs.contains '\x27' && !cs.contains '"' then '"' else '\x27'

/-- The lower-case hexadecimal digits of a code point, as many as are asked for. -/
def hexDigitsOf (code : Nat) : Nat → List Char
  | 0 => []
  | count + 1 => hexDigitsOf (code / 16) count ++ [Nat.digitChar (code % 16)]

/-- The escape of a character that is not printable. -/
def displayEscape (c : Char) : List Char :=
  if c.toNat < 0x100 then '\\' :: 'x' :: hexDigitsOf c.toNat 2
  else if c.toNat < 0x10000 then '\\' :: 'u' :: hexDigitsOf c.toNat 4
  else '\\' :: 'U' :: hexDigitsOf c.toNat 8

/-- How a character is written in a displayed text between the given marks. -/
def displayChar (mark c : Char) : List Char :=
  if c = mark ∨ c = '\\' then ['\\', c]
  else if c = '\n' then ['\\', 'n']
  else if c = '\r' then ['\\', 'r']
  else if c = '\t' then ['\\', 't']
  else if isPrintable c then [c]
  else displayEscape c

/-- A text as it is displayed inside a list or a record. -/
def display (s : String) : String :=
  let mark := displayMark s.toList
  String.ofList (mark :: s.toList.flatMap (displayChar mark) ++ [mark])

end JsxControl.Text
