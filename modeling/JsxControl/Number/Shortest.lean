import JsxControl.Number.Double

/-!
# The shortest decimal text of a double

`Double.shortest` looks for the coarsest decimal grid that has a point among the reals that round to
the given double, and takes the point nearest to it. `Decimal.text` lays the digits out:
positionally while the exponent of the leading digit is at least -4 and below 16, and with an
exponent of at least two digits otherwise.
-/

namespace JsxControl

/-- The number `digits * 10 ^ exponent`. -/
structure Decimal where
  digits : Nat
  exponent : Int
  deriving DecidableEq, Repr

namespace Decimal

/-- The decimal digits of a natural number, most significant first. -/
def digitChars (n : Nat) : List Char := Nat.toDigits 10 n

/-- An exponent is written with its sign and at least two digits. -/
def exponentChars (e : Int) : List Char :=
  let magnitude := digitChars e.natAbs
  (if e < 0 then '-' else '+') :: (if magnitude.length < 2 then '0' :: magnitude else magnitude)

/-- The text of a decimal whose last digit is not zero (or which is zero itself). -/
def chars (d : Decimal) : List Char :=
  let ds := digitChars d.digits
  let leading : Int := d.exponent + ds.length - 1
  if leading < -4 ∨ 16 ≤ leading then
    match ds with
    | [] => []
    | [c] => c :: 'e' :: exponentChars leading
    | c :: cs => c :: '.' :: cs ++ 'e' :: exponentChars leading
  else if 0 ≤ d.exponent then
    ds ++ List.replicate d.exponent.toNat '0' ++ ['.', '0']
  else if leading < 0 then
    '0' :: '.' :: List.replicate (-leading - 1).toNat '0' ++ ds
  else
    let whole := (leading + 1).toNat
    ds.take whole ++ '.' :: ds.drop whole

end Decimal

namespace Double

/-- The midpoint to the next smaller magnitude, in units of `2 ^ (x.exponent - 2)`. Below a power of
two the doubles lie twice as close. -/
def lowest (x : Double) : Nat :=
  if x.significand = 0x10000000000000 ∧ -1074 < x.exponent then 4 * x.significand - 1
  else 4 * x.significand - 2

/-- The midpoint to the next larger magnitude, in units of `2 ^ (x.exponent - 2)`. -/
def highest (x : Double) : Nat := 4 * x.significand + 2

/-- Whether `point * step` rounds to the magnitude of `x`, where `step` and `unit` are the grid's
step and `2 ^ (x.exponent - 2)` in one common unit. A midpoint rounds to the even significand. -/
def covers (x : Double) (unit step point : Nat) : Bool :=
  if x.significand % 2 = 0 then
    decide (x.lowest * unit ≤ point * step ∧ point * step ≤ x.highest * unit)
  else
    decide (x.lowest * unit < point * step ∧ point * step < x.highest * unit)

/-- The point of the grid of step `10 ^ k` that rounds to the magnitude of `x` and is nearest to it;
of two equally near ones the even one. -/
def onGrid? (x : Double) (k : Int) : Option Decimal :=
  let unit := Nat.pow 2 (x.exponent - 2).toNat * Nat.pow 10 (-k).toNat
  let step := Nat.pow 2 (2 - x.exponent).toNat * Nat.pow 10 k.toNat
  let value := 4 * x.significand * unit
  let below := value / step
  match x.covers unit step below, x.covers unit step (below + 1) with
  | false, false => none
  | true, false => some ⟨below, k⟩
  | false, true => some ⟨below + 1, k⟩
  | true, true =>
    match compare (2 * (value % step)) step with
    | .lt => some ⟨below, k⟩
    | .gt => some ⟨below + 1, k⟩
    | .eq => some ⟨if below % 2 = 0 then below else below + 1, k⟩

/-- Looks through the grids of step `10 ^ k`, `10 ^ (k - 1)`, and so on. -/
def search (x : Double) : Nat → Int → Decimal
  | 0, _ => ⟨0, 0⟩
  | steps + 1, k => (x.onGrid? k).getD (x.search steps (k - 1))

/-- The shortest decimal that rounds to the magnitude of `x`, nearest to it among those. The search
starts above the magnitude and has passed the grid on which the magnitude itself lies before it
could run out. -/
def shortest (x : Double) : Decimal :=
  if x.significand = 0 then ⟨0, 0⟩
  else
    let start := (Decimal.digitChars (x.significand * Nat.pow 2 x.exponent.toNat)).length
    x.search (start + 1 + (-x.exponent).toNat) start

/-- The text of a double: the shortest decimal that reads back, behind its sign. -/
def text (x : Double) : String :=
  String.ofList ((if x.negative then ['-'] else []) ++ x.shortest.chars)

end Double

end JsxControl
