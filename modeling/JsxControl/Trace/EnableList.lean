import JsxControl.Text.Blank
import JsxControl.Trace.Glob

/-!
# Lists of enabled channels

A list of patterns between commas and white space, such as `jsx-if-for*,-jsx-if-for-tree`. A pattern
behind a hyphen switches the channels that it fits off again, wherever in the list it stands.
-/

namespace JsxControl

/-- The patterns of channels that are switched on and of those that are switched off. -/
structure EnableList where
  included : List String := []
  excluded : List String := []
  deriving DecidableEq, Repr

namespace EnableList

/-- Whether a character stands between the patterns of a list. -/
def isSeparator (c : Char) : Bool := c = ',' || Text.isBlank c

/-- The longest runs of characters that are no separators; `hand` is the run read so far. -/
def words (hand : List Char) : List Char → List (List Char)
  | [] => if hand.isEmpty then [] else [hand]
  | c :: cs =>
    if isSeparator c then
      if hand.isEmpty then words [] cs else hand :: words [] cs
    else
      words (hand ++ [c]) cs

/-- The list with one more word. -/
def add (list : EnableList) (word : List Char) : EnableList :=
  match word with
  | '-' :: pattern => { list with excluded := list.excluded ++ [String.ofList pattern] }
  | pattern => { list with included := list.included ++ [String.ofList pattern] }

/-- The list that a text spells out. -/
def ofString (spec : String) : EnableList :=
  (words [] spec.toList).foldl add {}

/-- Whether a pattern fits a name. -/
def fits (name pattern : String) : Bool := Glob.accepts (Glob.ofString pattern) name.toList

/-- Whether the list switches a channel on. -/
def enables (list : EnableList) (name : String) : Bool :=
  !list.excluded.any (fits name) && list.included.any (fits name)

end EnableList

end JsxControl
