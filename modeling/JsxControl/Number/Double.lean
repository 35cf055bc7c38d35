/-!
# Finite binary64 numbers

A finite double is a sign and a magnitude `significand * 2 ^ exponent`, kept in its canonical
form: the significand uses all 53 bits unless the exponent is already the least one. Two doubles
are therefore equal exactly when sign, significand and exponent are.
-/

namespace JsxControl

/-- A finite IEEE 754 binary64 number in canonical form; the two zeros differ in their sign. The
significand lies below `2 ^ 53`, and at or above `2 ^ 52` unless the exponent is the least one. -/
structure Double where
  negative : Bool
  significand : Nat
  exponent : Int
  significand_lt : significand < 0x20000000000000 := by decide
  exponent_ge : -1074 ≤ exponent := by decide
  exponent_le : exponent ≤ 971 := by decide
  canonical : 0x10000000000000 ≤ significand ∨ exponent = -1074 := by decide
  deriving DecidableEq

namespace Double

/-- The positive zero. -/
def zero : Double where
  negative := false
  significand := 0
  exponent := -1074

instance : Inhabited Double := ⟨zero⟩

/-- The double with the given bit pattern, or `none` for an infinity or a NaN. -/
def ofBits? (bits : UInt64) : Option Double :=
  let fraction := bits.toNat % 0x10000000000000
  let biased := bits.toNat / 0x10000000000000 % 0x800
  have fraction_lt : fraction < 0x10000000000000 := Nat.mod_lt _ (by decide)
  have biased_lt : biased < 0x800 := Nat.mod_lt _ (by decide)
  let negative := decide (0x8000000000000000 ≤ bits.toNat)
  if h₀ : biased = 0 then
    some ⟨negative, fraction, -1074, by omega, by decide, by decide, .inr rfl⟩
  else if h₁ : biased = 2047 then
    none
  else
    some ⟨negative, 0x10000000000000 + fraction, biased - 1075, by omega, by omega, by omega,
      .inl (by omega)⟩

/-- The integer that a double is equal to, if it is equal to one. -/
def integer? (x : Double) : Option Int :=
  let signed (magnitude : Nat) : Int := if x.negative then -magnitude else magnitude
  if 0 ≤ x.exponent then
    some (signed (x.significand * Nat.pow 2 x.exponent.toNat))
  else if x.significand % Nat.pow 2 (-x.exponent).toNat = 0 then
    some (signed (x.significand / Nat.pow 2 (-x.exponent).toNat))
  else
    none

/-- The greatest integer that is not above a double. -/
def floor (x : Double) : Int :=
  let signed : Int := if x.negative then -x.significand else x.significand
  if 0 ≤ x.exponent then signed * Nat.pow 2 x.exponent.toNat
  else Int.fdiv signed (Nat.pow 2 (-x.exponent).toNat)

/-- The bit pattern of a double. -/
def bits (x : Double) : UInt64 :=
  let sign := if x.negative then 0x8000000000000000 else 0
  let magnitude :=
    if x.significand < 0x10000000000000 then x.significand
    else (x.exponent + 1075).toNat * 0x10000000000000 + (x.significand - 0x10000000000000)
  (sign + magnitude).toUInt64

/-- The double nearest to the one that comes one after. -/
def next (x : Double) : Double := (ofBits? (Float.ofBits x.bits + 1).toBits).getD x

end Double

end JsxControl
