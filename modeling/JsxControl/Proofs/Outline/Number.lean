import JsxControl.Number.Shortest
import Mathlib.Algebra.Order.Field.Power
import Mathlib.Data.List.TakeWhile
import Mathlib.Tactic.FieldSimp
import Mathlib.Tactic.Linarith
import Mathlib.Tactic.Ring

/-!
# Texts of numbers

The text of a decimal reads back as the decimal. The shortest decimal of a double is one of the
numbers that round to the double, and no number rounds to two doubles: the text of a double
determines it.
-/

namespace JsxControl

/-! ### Decimals read back -/

namespace Decimal

/-- The number that a decimal stands for. -/
def value (d : Decimal) : ℚ := d.digits * 10 ^ d.exponent

/-- The natural number with the given digits. -/
abbrev natural (cs : List Char) : ℕ := Nat.ofDigitChars 10 cs 0

/-- All characters are decimal digits. -/
abbrev AllDigits (cs : List Char) : Prop := ∀ c ∈ cs, c.isDigit

/-- A text of digits with a point, an exponent or both, and the number that it stands for. -/
inductive Denotes : List Char → ℚ → Prop
  | point {whole fraction : List Char} (hwhole : AllDigits whole) (hne : whole ≠ [])
    (hfraction : AllDigits fraction) :
    Denotes (whole ++ '.' :: fraction) (natural (whole ++ fraction) * 10 ^ (-fraction.length : ℤ))
  | exponent {whole : List Char} (hwhole : AllDigits whole) (hne : whole ≠ []) (e : ℤ) :
    Denotes (whole ++ 'e' :: exponentChars e) (natural whole * 10 ^ e)
  | both {whole fraction : List Char} (hwhole : AllDigits whole) (hne : whole ≠ [])
    (hfraction : AllDigits fraction) (e : ℤ) :
    Denotes (whole ++ '.' :: fraction ++ 'e' :: exponentChars e)
      (natural (whole ++ fraction) * 10 ^ (-fraction.length : ℤ) * 10 ^ e)

variable {whole fraction cs : List Char}

lemma allDigits_digitChars (n : ℕ) : AllDigits (digitChars n) := fun _ =>
  Nat.isDigit_of_mem_toDigits (by decide) (by decide)

lemma allDigits_zeros (k : ℕ) : AllDigits (List.replicate k '0') := by
  intro c hc
  rw [List.eq_of_mem_replicate hc]
  rfl

lemma allDigits_append (h : AllDigits whole) (h' : AllDigits fraction) :
    AllDigits (whole ++ fraction) := by
  intro c hc
  exact (List.mem_append.mp hc).elim (h c) (h' c)

lemma natural_digitChars (n : ℕ) : natural (digitChars n) = n := Nat.ofDigitChars_ten_toDigits

lemma natural_zeros_append (k : ℕ) (cs : List Char) :
    natural (List.replicate k '0' ++ cs) = natural cs := by
  simp [natural, Nat.ofDigitChars_append]

lemma natural_append_zeros (k : ℕ) :
    natural (cs ++ List.replicate k '0') = natural cs * 10 ^ k := by
  simp [natural, Nat.ofDigitChars_append, mul_comm]

/-- A point behind the first digit, and an exponent. -/
lemma denotes_scientific {c : Char} (h : AllDigits (c :: cs)) (leading : ℤ) :
    Denotes (c :: '.' :: cs ++ 'e' :: exponentChars leading)
      (natural (c :: cs) * 10 ^ (leading - cs.length)) := by
  have hten : (10 : ℚ) ≠ 0 := by norm_num
  obtain ⟨hc, hcs⟩ := List.forall_mem_cons.mp h
  rw [sub_eq_neg_add, zpow_add₀ hten, ← mul_assoc]
  exact .both (List.forall_mem_singleton.mpr hc) (List.cons_ne_nil c []) hcs leading

/-- Zeros behind the digits, and nothing but a zero behind the point. -/
lemma denotes_whole (h : AllDigits cs) (hne : cs ≠ []) (k : ℕ) :
    Denotes (cs ++ List.replicate k '0' ++ ['.', '0']) (natural cs * 10 ^ (k : ℤ)) := by
  have hnumber : (natural cs * 10 ^ (k : ℤ) : ℚ) =
      natural (cs ++ List.replicate k '0' ++ ['0']) * 10 ^ (-(['0'] : List Char).length : ℤ) := by
    rw [List.append_assoc, ← List.replicate_succ', natural_append_zeros]
    simp [pow_succ, ← mul_assoc]
  rw [hnumber]
  exact .point (allDigits_append h (allDigits_zeros k)) (by simp [hne]) (allDigits_zeros 1)

/-- Zeros in front of the digits, which are all behind the point. -/
lemma denotes_small (h : AllDigits cs) (k : ℕ) :
    Denotes ('0' :: '.' :: List.replicate k '0' ++ cs)
      (natural cs * 10 ^ (-(k + cs.length : ℕ) : ℤ)) := by
  have hlength : k + cs.length = (List.replicate k '0' ++ cs).length := by simp
  have hnumber : natural cs = natural (['0'] ++ (List.replicate k '0' ++ cs)) := by
    rw [← List.append_assoc, List.singleton_append, ← List.replicate_succ, natural_zeros_append]
  rw [hnumber, hlength]
  exact .point (allDigits_zeros 1) (List.cons_ne_nil _ _) (allDigits_append (allDigits_zeros k) h)

/-- The point between the digits. -/
lemma denotes_split (h : AllDigits cs) (hne : cs ≠ []) {k : ℕ} (hk : k ≠ 0) :
    Denotes (cs.take k ++ '.' :: cs.drop k)
      (natural cs * 10 ^ (-(cs.length - k : ℕ) : ℤ)) := by
  have hnumber : natural cs = natural (cs.take k ++ cs.drop k) := by rw [List.take_append_drop]
  rw [hnumber, ← List.length_drop]
  refine .point (fun c hc => h c (List.mem_of_mem_take hc)) ?_
    fun c hc => h c (List.mem_of_mem_drop hc)
  simp [hk, hne]

/-- The text of a decimal stands for its value, however it is laid out. -/
lemma denotes_chars (d : Decimal) : Denotes d.chars d.value := by
  have hdigits : AllDigits (digitChars d.digits) := allDigits_digitChars d.digits
  have hvalue : natural (digitChars d.digits) = d.digits := natural_digitChars d.digits
  obtain ⟨c, cs, hds⟩ : ∃ c cs, digitChars d.digits = c :: cs :=
    List.exists_cons_of_ne_nil Nat.toDigits_ne_nil
  simp only [chars, value]
  rw [hds] at hdigits hvalue
  rw [hds, ← hvalue]
  set leading : ℤ := d.exponent + (c :: cs).length - 1 with hleading
  rw [List.length_cons] at hleading
  split_ifs with hscientific hwhole hsmall
  · have hexponent : d.exponent = leading - cs.length := by omega
    rw [hexponent]
    cases cs with
    | nil =>
      rw [List.length_nil, Nat.cast_zero, sub_zero]
      exact .exponent hdigits (List.cons_ne_nil c []) leading
    | cons c' cs => exact denotes_scientific hdigits leading
  · obtain ⟨k, hk⟩ := Int.eq_ofNat_of_zero_le hwhole
    rw [hk, Int.toNat_natCast]
    exact denotes_whole hdigits (List.cons_ne_nil c cs) k
  · have hexponent : d.exponent = -((-leading - 1).toNat + (c :: cs).length : ℕ) := by
      rw [List.length_cons]
      omega
    rw [hexponent]
    exact denotes_small hdigits _
  · have hexponent : d.exponent = -((c :: cs).length - (leading + 1).toNat : ℕ) := by
      rw [List.length_cons]
      omega
    rw [hexponent]
    exact denotes_split hdigits (List.cons_ne_nil c cs) (by omega)

/-! ### Reading -/

/-- The integer with the given digits behind its sign. -/
def integer : List Char → ℤ
  | [] => 0
  | c :: cs => if c = '-' then -natural cs else natural cs

/-- The number with the given digits, of which some may stand behind a point. -/
def fixed (cs : List Char) : ℚ :=
  let whole := cs.takeWhile (· ≠ '.')
  let fraction := (cs.dropWhile (· ≠ '.')).tail
  natural (whole ++ fraction) * 10 ^ (-fraction.length : ℤ)

/-- The number that a text is read as. -/
def read (cs : List Char) : ℚ :=
  fixed (cs.takeWhile (· ≠ 'e')) * 10 ^ integer (cs.dropWhile (· ≠ 'e')).tail

section Split

variable {c : Char} (h : c ∉ cs)
include h

lemma takeWhile_ne_append (rest : List Char) : (cs ++ c :: rest).takeWhile (· ≠ c) = cs := by
  rw [List.takeWhile_append_of_pos fun d hd => by simpa using ne_of_mem_of_not_mem hd h]
  simp

lemma dropWhile_ne_append (rest : List Char) : (cs ++ c :: rest).dropWhile (· ≠ c) = c :: rest := by
  rw [List.dropWhile_append_of_pos fun d hd => by simpa using ne_of_mem_of_not_mem hd h]
  simp

lemma takeWhile_ne_self : cs.takeWhile (· ≠ c) = cs :=
  List.takeWhile_eq_self_iff.mpr fun d hd => by simpa using ne_of_mem_of_not_mem hd h

lemma dropWhile_ne_self : cs.dropWhile (· ≠ c) = [] :=
  List.dropWhile_eq_nil_iff.mpr fun d hd => by simpa using ne_of_mem_of_not_mem hd h

end Split

lemma AllDigits.not_mem (h : AllDigits cs) {c : Char} (hc : c.isDigit = false) : c ∉ cs := by
  intro hmem
  simp [h c hmem] at hc

lemma integer_exponentChars (e : ℤ) : integer (exponentChars e) = e := by
  have hpadded : natural (if (digitChars e.natAbs).length < 2 then '0' :: digitChars e.natAbs
      else digitChars e.natAbs) = e.natAbs := by
    split
    · simpa [natural_digitChars] using natural_zeros_append 1 (digitChars e.natAbs)
    · exact natural_digitChars _
  rw [exponentChars, integer, hpadded]
  by_cases he : e < 0
  · rw [if_pos he, if_pos rfl]
    omega
  · rw [if_neg he, if_neg (by decide)]
    omega

lemma fixed_point (h : '.' ∉ whole) : fixed (whole ++ '.' :: fraction) =
    natural (whole ++ fraction) * 10 ^ (-fraction.length : ℤ) := by
  simp only [fixed, takeWhile_ne_append h, dropWhile_ne_append h, List.tail_cons]

lemma fixed_whole (h : '.' ∉ whole) : fixed whole = natural whole := by
  simp only [fixed, takeWhile_ne_self h, dropWhile_ne_self h]
  simp

lemma read_exponent (h : 'e' ∉ cs) (e : ℤ) :
    read (cs ++ 'e' :: exponentChars e) = fixed cs * 10 ^ e := by
  rw [read, takeWhile_ne_append h, dropWhile_ne_append h, List.tail_cons, integer_exponentChars]

lemma read_fixed (h : 'e' ∉ cs) : read cs = fixed cs := by
  simp only [read, takeWhile_ne_self h, dropWhile_ne_self h]
  simp [integer]

/-- A text stands for the number that it is read as. -/
lemma Denotes.read_eq {q : ℚ} (h : Denotes cs q) : read cs = q := by
  cases h with
  | point hwhole _ hfraction =>
    rw [read_fixed, fixed_point (hwhole.not_mem rfl)]
    simp [hwhole.not_mem, hfraction.not_mem]
  | exponent hwhole _ e => rw [read_exponent (hwhole.not_mem rfl), fixed_whole (hwhole.not_mem rfl)]
  | both hwhole _ hfraction e =>
    rw [read_exponent, fixed_point (hwhole.not_mem rfl)]
    simp [hwhole.not_mem, hfraction.not_mem]

/-- The text of a decimal reads back as its value. -/
theorem read_chars (d : Decimal) : read d.chars = d.value := (denotes_chars d).read_eq

/-! ### The characters of numbers -/

/-- The characters that numbers are written with. -/
def IsNumeric (c : Char) : Prop := c.isDigit ∨ c ∈ ['.', 'e', '+', '-']

lemma isNumeric_of_mem_exponentChars {e : ℤ} {c : Char} (h : c ∈ exponentChars e) :
    IsNumeric c := by
  rw [exponentChars, List.mem_cons] at h
  rcases h with rfl | h
  · split_ifs <;> simp [IsNumeric]
  · left
    split_ifs at h
    · exact allDigits_append (allDigits_zeros 1) (allDigits_digitChars _) c h
    · exact allDigits_digitChars _ c h

/-- A text that stands for a number begins with digits, which end at a point or an exponent. -/
lemma Denotes.exists_mark {q : ℚ} (h : Denotes cs q) : ∃ whole mark rest,
    cs = whole ++ mark :: rest ∧ whole ≠ [] ∧ AllDigits whole ∧ (mark = '.' ∨ mark = 'e') ∧
      ∀ c ∈ rest, IsNumeric c := by
  cases h with
  | point hwhole hne hfraction =>
    exact ⟨_, _, _, rfl, hne, hwhole, .inl rfl, fun c hc => .inl (hfraction c hc)⟩
  | exponent hwhole hne e =>
    exact ⟨_, _, _, rfl, hne, hwhole, .inr rfl, fun c => isNumeric_of_mem_exponentChars⟩
  | @both whole fraction hwhole hne hfraction e =>
    refine ⟨whole, '.', fraction ++ 'e' :: exponentChars e, by simp, hne, hwhole, .inl rfl, ?_⟩
    intro c hc
    rcases List.mem_append.mp hc with hc | hc
    · exact .inl (hfraction c hc)
    · rcases List.mem_cons.mp hc with rfl | hc
      · simp [IsNumeric]
      · exact isNumeric_of_mem_exponentChars hc

end Decimal

/-! ### The numbers that round to a double -/

namespace Double

variable {x y : Double} {q : ℚ}

/-- A number lies between the midpoints on the two sides of the magnitude of a double. A midpoint
itself rounds to the neighbour with the even significand. -/
def Rounds (x : Double) (q : ℚ) : Prop :=
  if x.significand % 2 = 0 then
    x.lowest * 2 ^ (x.exponent - 2) ≤ q ∧ q ≤ x.highest * 2 ^ (x.exponent - 2)
  else
    x.lowest * 2 ^ (x.exponent - 2) < q ∧ q < x.highest * 2 ^ (x.exponent - 2)

/-- The magnitude of a double. -/
def magnitude (x : Double) : ℚ := x.significand * 2 ^ x.exponent

lemma Rounds.bounds (h : x.Rounds q) :
    x.lowest * 2 ^ (x.exponent - 2) ≤ q ∧ q ≤ x.highest * 2 ^ (x.exponent - 2) := by
  rw [Rounds] at h
  split_ifs at h
  · exact h
  · exact ⟨h.1.le, h.2.le⟩

lemma Rounds.strict (h : x.Rounds q) (hodd : x.significand % 2 = 1) :
    x.lowest * 2 ^ (x.exponent - 2) < q ∧ q < x.highest * 2 ^ (x.exponent - 2) := by
  rwa [Rounds, if_neg (by omega)] at h

lemma le_lowest (x : Double) : 4 * x.significand ≤ x.lowest + 2 := by
  rw [lowest]
  split_ifs <;> omega

/-- Where a number rounds to two doubles, the lower end for the one is not above the upper end for
the other, and below it if a significand is odd. -/
lemma lowest_le_highest (hx : x.Rounds q) (hy : y.Rounds q) {k : ℕ}
    (h : y.exponent = x.exponent + k) : y.lowest * 2 ^ k ≤ x.highest ∧
      (x.significand % 2 = 1 ∨ y.significand % 2 = 1 → y.lowest * 2 ^ k < x.highest) := by
  have hunit : (0 : ℚ) < 2 ^ (x.exponent - 2) := by positivity
  have hscale : (y.lowest : ℚ) * 2 ^ (y.exponent - 2) =
      (y.lowest * 2 ^ k : ℕ) * 2 ^ (x.exponent - 2) := by
    rw [show y.exponent - 2 = k + (x.exponent - 2) by omega, zpow_add₀ (by norm_num), zpow_natCast]
    push_cast
    ring
  constructor
  · have hle := hy.bounds.1.trans hx.bounds.2
    rw [hscale, mul_le_mul_iff_left₀ hunit] at hle
    exact_mod_cast hle
  · intro hodd
    have hlt : (y.lowest : ℚ) * 2 ^ (y.exponent - 2) < x.highest * 2 ^ (x.exponent - 2) := by
      rcases hodd with hodd | hodd
      · exact hy.bounds.1.trans_lt (hx.strict hodd).2
      · exact (hy.strict hodd).1.trans_le hx.bounds.2
    rw [hscale, mul_lt_mul_iff_left₀ hunit] at hlt
    exact_mod_cast hlt

/-- Doubles with one exponent do not meet: of two adjacent significands one is odd. -/
lemma significand_le_of_rounds (hx : x.Rounds q) (hy : y.Rounds q) (h : y.exponent = x.exponent) :
    y.significand ≤ x.significand := by
  obtain ⟨hle, hlt⟩ := lowest_le_highest (k := 0) hx hy (by simp [h])
  have hlowest := y.le_lowest
  rw [pow_zero, mul_one, highest] at hle hlt
  omega

/-- Doubles with different exponents do not meet either: at a power of two the larger one comes down
as far as the largest significand, which is odd, goes up. -/
lemma exponent_le_of_rounds (hx : x.Rounds q) (hy : y.Rounds q) : y.exponent ≤ x.exponent := by
  by_contra! hexponent
  obtain ⟨k, hk⟩ : ∃ k : ℕ, y.exponent = x.exponent + (k + 1 : ℕ) :=
    ⟨(y.exponent - x.exponent - 1).toNat, by omega⟩
  obtain ⟨hle, hlt⟩ := lowest_le_highest hx hy hk
  have hpower : y.lowest * 2 ≤ y.lowest * 2 ^ (k + 1) := by
    rw [pow_succ']
    exact Nat.mul_le_mul_left _ (Nat.le_mul_of_pos_right _ (by positivity))
  have hbound := x.significand_lt
  have hleast := x.exponent_ge
  have hcanonical := y.canonical
  rw [highest] at hle hlt
  rw [lowest] at hpower hle hlt
  split_ifs at hpower hle hlt <;> omega

/-- No number rounds to two magnitudes. -/
theorem eq_of_rounds (hx : x.Rounds q) (hy : y.Rounds q) :
    x.significand = y.significand ∧ x.exponent = y.exponent := by
  have hexponent := (exponent_le_of_rounds hy hx).antisymm (exponent_le_of_rounds hx hy)
  refine ⟨?_, hexponent⟩
  exact (significand_le_of_rounds hy hx hexponent).antisymm
    (significand_le_of_rounds hx hy hexponent.symm)

/-! ### The shortest decimal -/

lemma pow_toNat {b : ℚ} (hb : b ≠ 0) (z : ℤ) : b ^ z.toNat = b ^ z * b ^ (-z).toNat := by
  rw [← zpow_natCast, ← zpow_natCast, ← zpow_add₀ hb]
  congr 1
  omega

/-- The unit of a double and the step of a grid, as the search has them, in proportion. -/
lemma exists_scale (x : Double) (k : ℤ) : ∃ scale : ℚ, 0 < scale ∧
    (Nat.pow 2 (x.exponent - 2).toNat * Nat.pow 10 (-k).toNat : ℕ) = 2 ^ (x.exponent - 2) * scale ∧
    (Nat.pow 2 (2 - x.exponent).toNat * Nat.pow 10 k.toNat : ℕ) = 10 ^ k * scale := by
  refine ⟨2 ^ (2 - x.exponent).toNat * 10 ^ (-k).toNat, by positivity, ?_, ?_⟩
  · simp only [Nat.pow_eq]
    push_cast
    rw [pow_toNat (by norm_num) (x.exponent - 2), neg_sub]
    ring
  · simp only [Nat.pow_eq]
    push_cast
    rw [pow_toNat (by norm_num) k]
    ring

section Grid

variable {unit step : ℕ} {scale : ℚ} {k : ℤ}

/-- A point of a grid is compared to the ends of a double in any common unit. -/
lemma covers_iff (hscale : 0 < scale) (hunit : (unit : ℚ) = 2 ^ (x.exponent - 2) * scale)
    (hstep : (step : ℚ) = 10 ^ k * scale) (point : ℕ) :
    x.covers unit step point ↔ x.Rounds (point * 10 ^ k) := by
  rw [covers, Rounds]
  simp only [apply_ite (· = true), decide_eq_true_eq, ← Nat.cast_le (α := ℚ),
    ← Nat.cast_lt (α := ℚ), Nat.cast_mul, hunit, hstep, ← mul_assoc,
    mul_le_mul_iff_left₀ hscale, mul_lt_mul_iff_left₀ hscale]

end Grid

/-- The magnitude of a double other than zero rounds to it. -/
lemma rounds_magnitude (h : x.significand ≠ 0) : x.Rounds x.magnitude := by
  have hunit : (0 : ℚ) < 2 ^ (x.exponent - 2) := by positivity
  have hmagnitude : x.magnitude = (4 * x.significand : ℕ) * 2 ^ (x.exponent - 2) := by
    rw [magnitude, zpow_sub₀ (by norm_num)]
    push_cast
    ring
  have hlow : x.lowest < 4 * x.significand := by
    rw [lowest]
    split_ifs <;> omega
  have hhigh : 4 * x.significand < x.highest := by
    rw [highest]
    omega
  have hbounds : x.lowest * 2 ^ (x.exponent - 2) < x.magnitude ∧
      x.magnitude < x.highest * 2 ^ (x.exponent - 2) := by
    rw [hmagnitude, mul_lt_mul_iff_left₀ hunit, mul_lt_mul_iff_left₀ hunit]
    exact ⟨by exact_mod_cast hlow, by exact_mod_cast hhigh⟩
  rw [Rounds]
  split_ifs
  · exact ⟨hbounds.1.le, hbounds.2.le⟩
  · exact hbounds

/-- What is found on a grid rounds to the magnitude. -/
lemma rounds_of_onGrid? {k : ℤ} {d : Decimal} (h : x.onGrid? k = some d) : x.Rounds d.value := by
  obtain ⟨scale, hscale, hunit, hstep⟩ := exists_scale x k
  simp only [onGrid?] at h
  generalize Nat.pow 2 (x.exponent - 2).toNat * Nat.pow 10 (-k).toNat = unit at *
  generalize Nat.pow 2 (2 - x.exponent).toNat * Nat.pow 10 k.toNat = step at *
  have hcovers := covers_iff hscale hunit hstep
  have hrounds {point : ℕ} (hpoint : x.covers unit step point = true) (hd : ⟨point, k⟩ = d) :
      x.Rounds d.value := by
    rw [← hd]
    exact (hcovers point).mp hpoint
  split at h
  · simp at h
  · exact hrounds ‹_› (Option.some.inj h)
  · exact hrounds ‹_› (Option.some.inj h)
  · split at h
    · exact hrounds (by assumption) (Option.some.inj h)
    · exact hrounds (by assumption) (Option.some.inj h)
    · refine hrounds ?_ (Option.some.inj h)
      split_ifs <;> assumption

/-- Something is found on a grid on which the magnitude lies. -/
lemma onGrid?_isSome {k : ℤ} {n : ℕ} (h : x.significand ≠ 0) (hn : x.magnitude = n * 10 ^ k) :
    (x.onGrid? k).isSome := by
  obtain ⟨scale, hscale, hunit, hstep⟩ := exists_scale x k
  simp only [onGrid?]
  generalize Nat.pow 2 (x.exponent - 2).toNat * Nat.pow 10 (-k).toNat = unit at *
  generalize Nat.pow 2 (2 - x.exponent).toNat * Nat.pow 10 k.toNat = step at *
  have hpos : 0 < step := by
    have hstep' : (0 : ℚ) < step := by
      rw [hstep]
      positivity
    exact_mod_cast hstep'
  have hvalue : 4 * x.significand * unit = n * step := by
    have hvalue' : (4 * x.significand * unit : ℚ) = n * step := by
      rw [hunit, hstep, ← mul_assoc, ← mul_assoc, ← hn, magnitude, zpow_sub₀ (by norm_num)]
      ring
    exact_mod_cast hvalue'
  have hfound : x.covers unit step n = true := by
    rw [covers_iff hscale hunit hstep, ← hn]
    exact rounds_magnitude h
  rw [hvalue, Nat.mul_div_cancel _ hpos, hfound]
  split <;> first | contradiction | (split <;> simp) | simp

/-- The search stops at a decimal that rounds to the magnitude if it comes to a grid on which the
magnitude lies. -/
lemma rounds_search {k : ℤ} {n : ℕ} (h : x.significand ≠ 0) (hn : x.magnitude = n * 10 ^ k)
    {steps : ℕ} {from_ : ℤ} (hfrom : k ≤ from_) (hsteps : from_ - steps < k) :
    x.Rounds (x.search steps from_).value := by
  induction steps generalizing from_ with
  | zero => omega
  | succ steps ih =>
    rw [search]
    cases hfound : x.onGrid? from_ with
    | some d => exact rounds_of_onGrid? hfound
    | none =>
      have hne : k ≠ from_ := by
        rintro rfl
        simpa [hfound] using onGrid?_isSome h hn
      exact ih (by omega) (by push_cast at hsteps; omega)

/-- The search stops at a decimal that rounds to the magnitude. -/
lemma rounds_shortest (h : x.significand ≠ 0) : x.Rounds x.shortest.value := by
  have hn : x.magnitude = (x.significand * 2 ^ x.exponent.toNat * 5 ^ (-x.exponent).toNat : ℕ) *
      10 ^ (-(-x.exponent).toNat : ℤ) := by
    have hten : (10 : ℚ) ^ (-x.exponent).toNat =
        5 ^ (-x.exponent).toNat * 2 ^ (-x.exponent).toNat := by
      rw [← mul_pow]
      norm_num
    push_cast
    rw [magnitude, pow_toNat (by norm_num) x.exponent, zpow_neg, zpow_natCast, hten]
    field_simp
  rw [shortest, if_neg h]
  exact rounds_search h hn (by omega) (by push_cast; omega)

lemma rounds_pos (h : x.significand ≠ 0) (hx : x.Rounds q) : 0 < q := by
  have hlowest : 0 < x.lowest := by
    rw [lowest]
    split_ifs <;> omega
  exact lt_of_lt_of_le (by positivity) hx.bounds.1

/-- A magnitude is the value of the shortest decimal of one double only. -/
lemma eq_of_value_shortest (h : x.shortest.value = y.shortest.value) :
    x.significand = y.significand ∧ x.exponent = y.exponent := by
  have hzero {z : Double} (hz : z.significand = 0) : z.shortest.value = 0 ∧ z.exponent = -1074 := by
    refine ⟨by simp [shortest, hz, Decimal.value], ?_⟩
    have hcanonical := z.canonical
    omega
  by_cases hx : x.significand = 0
  · by_cases hy : y.significand = 0
    · exact ⟨hx.trans hy.symm, (hzero hx).2.trans (hzero hy).2.symm⟩
    · have hpos := rounds_pos hy (rounds_shortest hy)
      rw [← h, (hzero hx).1] at hpos
      exact absurd hpos (lt_irrefl 0)
  · by_cases hy : y.significand = 0
    · have hpos := rounds_pos hx (rounds_shortest hx)
      rw [h, (hzero hy).1] at hpos
      exact absurd hpos (lt_irrefl 0)
    · exact eq_of_rounds (rounds_shortest hx) (h ▸ rounds_shortest hy)

/-- The text of a double has a point or an exponent behind its digits. -/
lemma exists_mark (x : Double) : ∃ whole mark rest,
    x.text.toList = (if x.negative then ['-'] else []) ++ (whole ++ mark :: rest) ∧ whole ≠ [] ∧
      Decimal.AllDigits whole ∧ (mark = '.' ∨ mark = 'e') ∧ ∀ c ∈ rest, Decimal.IsNumeric c := by
  obtain ⟨whole, mark, rest, hchars, h⟩ := (Decimal.denotes_chars x.shortest).exists_mark
  exact ⟨whole, mark, rest, by rw [text, String.toList_ofList, hchars], h⟩

/-- The text of a decimal has no sign. -/
lemma shortest_chars_head (x : Double) (rest : List Char) : x.shortest.chars ≠ '-' :: rest := by
  obtain ⟨whole, mark, later, hchars, hne, hdigits, -⟩ :=
    (Decimal.denotes_chars x.shortest).exists_mark
  obtain ⟨c, cs, rfl⟩ := List.exists_cons_of_ne_nil hne
  rw [hchars]
  intro h
  obtain ⟨rfl, -⟩ := List.cons.inj h
  exact hdigits.not_mem rfl List.mem_cons_self

/-- The text of a double determines it. -/
theorem text_injective : Function.Injective text := by
  intro x y h
  have hlists : (if x.negative then ['-'] else []) ++ x.shortest.chars =
      (if y.negative then ['-'] else []) ++ y.shortest.chars := by
    simpa [text] using congrArg String.toList h
  have hboth : x.negative = y.negative ∧ x.shortest.chars = y.shortest.chars := by
    cases hx : x.negative <;> cases hy : y.negative <;> simp [hx, hy] at hlists ⊢
    · exact hlists
    · exact shortest_chars_head x _ hlists
    · exact shortest_chars_head y _ hlists.symm
    · exact hlists
  have hvalue : x.shortest.value = y.shortest.value := by
    rw [← Decimal.read_chars, ← Decimal.read_chars, hboth.2]
  obtain ⟨hsignificand, hexponent⟩ := eq_of_value_shortest hvalue
  obtain ⟨negative, significand, exponent⟩ := x
  obtain ⟨negative', significand', exponent'⟩ := y
  simp_all

lemma isNumeric_of_mem_text {x : Double} {c : Char} (h : c ∈ x.text.toList) :
    Decimal.IsNumeric c := by
  obtain ⟨whole, mark, rest, htext, -, hwhole, hmark, hrest⟩ := x.exists_mark
  rw [htext, List.mem_append, List.mem_append, List.mem_cons] at h
  rcases h with hsign | hdigit | rfl | hlater
  · obtain rfl : c = '-' := by
      split_ifs at hsign
      · simpa using hsign
      · simp at hsign
    simp [Decimal.IsNumeric]
  · exact .inl (hwhole c hdigit)
  · rcases hmark with rfl | rfl <;> simp [Decimal.IsNumeric]
  · exact hrest c hlater

end Double

/-! ### Integers -/

namespace Decimal

lemma toList_toString (n : ℤ) : (toString n).toList =
    (if n < 0 then ['-'] else []) ++ digitChars n.natAbs := by
  rw [Int.toString_eq_repr, Int.repr_eq_if]
  by_cases h : 0 ≤ n
  · have hnat : n.toNat = n.natAbs := by omega
    rw [if_pos h, if_neg (by omega), Nat.toList_repr, hnat]
    rfl
  · have hnat : (-n).toNat = n.natAbs := by omega
    rw [if_neg h, if_pos (by omega), String.toList_append, Nat.toList_repr, hnat]
    rfl

lemma mem_toString {n : ℤ} {c : Char} (h : c ∈ (toString n).toList) : c = '-' ∨ c.isDigit := by
  rw [toList_toString, List.mem_append] at h
  rcases h with hsign | hdigit
  · left
    split_ifs at hsign
    · simpa using hsign
    · simp at hsign
  · exact .inr (allDigits_digitChars _ c hdigit)

lemma digitChars_ne_cons (n : ℕ) (rest : List Char) : digitChars n ≠ '-' :: rest := by
  intro h
  exact (allDigits_digitChars n).not_mem rfl (h ▸ List.mem_cons_self)

/-- The text of an integer determines it. -/
theorem toString_injective {n m : ℤ} (h : (toString n).toList = (toString m).toList) : n = m := by
  have habs (hdigits : digitChars n.natAbs = digitChars m.natAbs) : n.natAbs = m.natAbs := by
    rw [← natural_digitChars n.natAbs, hdigits, natural_digitChars]
  rw [toList_toString, toList_toString] at h
  split_ifs at h with hn hm hm
  · have hsame := habs (List.cons.inj h).2
    omega
  · exact absurd h.symm (digitChars_ne_cons _ _)
  · exact absurd h (digitChars_ne_cons _ _)
  · have hsame := habs h
    omega

/-- No integer is written like a double. -/
lemma toString_ne_text (n : ℤ) (x : Double) : (toString n).toList ≠ x.text.toList := by
  obtain ⟨whole, mark, rest, htext, -, -, hmark, -⟩ := x.exists_mark
  intro h
  have hmem : mark ∈ (toString n).toList := by
    rw [h, htext]
    simp
  rcases mem_toString hmem with rfl | hdigit
  · simp at hmark
  · rcases hmark with rfl | rfl <;> simp at hdigit

end Decimal

end JsxControl
