import JsxControl.Text.Case.Table
import JsxControl.Text.Range

/-!
# Lower case and title case

The full Unicode mappings on texts. Every character but one is mapped on its own: a capital sigma
becomes a final sigma where it ends a word, and `lowerAt` therefore sees what stands around it.
-/

namespace JsxControl.Text

/-- Whether a character has case: it is a small, capital or titlecase letter. -/
def isCased (c : Char) : Bool :=
  if c.toNat < 128 then c.isAlpha else inRanges casedRanges c

/-- Whether a character is passed over in the search for the cased neighbour of a sigma. -/
def isCaseIgnorable (c : Char) : Bool :=
  if c.toNat < 128 then ['\x27', '.', ':', '^', '\x60'].contains c
  else inRanges caseIgnorableRanges c

/-- Whether the nearest character that is not passed over is a cased one. -/
def meetsCased (cs : List Char) : Bool :=
  match cs.dropWhile isCaseIgnorable with
  | [] => false
  | c :: _ => isCased c

/-- A sigma is final if a cased character stands before it and none after it. -/
def isFinalSigma (before after : List Char) : Bool :=
  meetsCased before && !meetsCased after

/-- The character that the first run holding `c` maps it to, or `c` itself. -/
def mapRuns (runs : List CaseRun) (c : Char) : Char :=
  match runs.findSome? (·.map? c.toNat) with
  | some code => Char.ofNat code
  | none => c

/-- The small form of `c`, which stands between `before` (nearest first) and `after`. -/
def lowerAt (before : List Char) (c : Char) (after : List Char) : List Char :=
  if c.toNat < 128 then [c.toLower]
  else if c = 'Σ' then [if isFinalSigma before after then 'ς' else 'σ']
  else if c = 'İ' then ['i', '\u0307']
  else [mapRuns lowerRuns c]

/-- The titlecase form of a character. -/
def titleChar (c : Char) : List Char :=
  if c.toNat < 128 then [c.toUpper]
  else match titleSequences.lookup c.toNat with
    | some codes => codes.map Char.ofNat
    | none => [mapRuns titleRuns c]

/-- Lower case of a text behind the characters `before` (nearest first). -/
def lowerFrom (before : List Char) : List Char → List Char
  | [] => []
  | c :: after => lowerAt before c after ++ lowerFrom (c :: before) after

/-- Lower case of a text. -/
def lower (cs : List Char) : List Char := lowerFrom [] cs

/-- Title case of a text behind the characters `before` (nearest first). -/
def titleFrom (before : List Char) : List Char → List Char
  | [] => []
  | c :: after =>
    (if before.head?.any isCased then lowerAt before c after else titleChar c)
      ++ titleFrom (c :: before) after

/-- Title case of a text: a character behind a cased one is lowered, any other takes its titlecase
form. -/
def title (cs : List Char) : List Char := titleFrom [] cs

end JsxControl.Text
