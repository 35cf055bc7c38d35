/-!
# Quoted texts

A text between double quotes, with escapes as in JSON. `quoteAscii` writes printable ASCII only and
every other character by the four-digit escapes of its UTF-16 units; `quote` escapes the quote, the
backslash and the control characters and leaves all else as it is.
-/

namespace JsxControl.Text

/-- The lower-case hexadecimal digits of a 16-bit unit, always four. -/
def hexDigits (unit : Nat) : List Char :=
  [Nat.digitChar (unit / 4096 % 16), Nat.digitChar (unit / 256 % 16),
   Nat.digitChar (unit / 16 % 16), Nat.digitChar (unit % 16)]

/-- The escape of one 16-bit unit. -/
def escapeUnit (unit : Nat) : List Char :=
  '\\' :: 'u' :: hexDigits unit

/-- The escapes of a code point: one unit, or the two of its surrogate pair. -/
def escapeCode (code : Nat) : List Char :=
  if code < 0x10000 then escapeUnit code
  else
    escapeUnit (0xd800 + (code - 0x10000) / 0x400)
      ++ escapeUnit (0xdc00 + (code - 0x10000) % 0x400)

/-- The escapes that have a letter or stand for themselves. -/
def shortEscape? : Char → Option (List Char)
  | '"' => some ['\\', '"']
  | '\\' => some ['\\', '\\']
  | '\n' => some ['\\', 'n']
  | '\r' => some ['\\', 'r']
  | '\t' => some ['\\', 't']
  | '\x08' => some ['\\', 'b']
  | '\x0c' => some ['\\', 'f']
  | _ => none

/-- How a character is written if only those in `plain` may stand as they are. -/
def escapeChar (plain : Char → Bool) (c : Char) : List Char :=
  match shortEscape? c with
  | some escape => escape
  | none => if plain c then [c] else escapeCode c.toNat

/-- A text in double quotes, in which only the characters in `plain` stand as they are. -/
def quoteWith (plain : Char → Bool) (s : String) : String :=
  String.ofList ('"' :: s.toList.flatMap (escapeChar plain) ++ ['"'])

/-- A text in double quotes; the control characters below the space are escaped. -/
def quote (s : String) : String :=
  quoteWith (fun c => ' ' ≤ c) s

/-- A text in double quotes; all but printable ASCII is escaped. -/
def quoteAscii (s : String) : String :=
  quoteWith (fun c => ' ' ≤ c && c ≤ '~') s

end JsxControl.Text
