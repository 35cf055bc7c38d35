/-!
# Positions in lists

A position counts from the start of a list, or from its end if it is negative: -1 is that of the
last item.
-/

namespace JsxControl.Index

/-- A position counted from the start of a list of the given length. -/
def fromStart (length : Nat) (position : Int) : Int :=
  if position < 0 then position + length else position

/-- The item that a position names in a list of the given length, if there is one. -/
def resolve? (length : Nat) (position : Int) : Option Nat :=
  if 0 ≤ fromStart length position ∧ fromStart length position < length then
    some (fromStart length position).toNat
  else
    none

/-- The gap between items that a position names; what lies beyond an end means that end. -/
def gap (length : Nat) (position : Int) : Nat := min (fromStart length position).toNat length

/-- The items between two gaps. -/
def slice {α : Type} (items : List α) (start stop : Int) : List α :=
  (items.take (gap items.length stop)).drop (gap items.length start)

/-- The items that are left when those between two gaps are taken out. -/
def without {α : Type} (items : List α) (start stop : Int) : List α :=
  items.take (gap items.length start)
    ++ items.drop (max (gap items.length start) (gap items.length stop))

@[simp] theorem fromStart_natCast (length k : Nat) : fromStart length k = k := by
  have : ¬ (k : Int) < 0 := by omega
  simp [fromStart, this]

theorem resolve?_eq_some_iff {length k : Nat} {position : Int} :
    resolve? length position = some k ↔ fromStart length position = k ∧ k < length := by
  simp only [resolve?, Option.ite_none_right_eq_some, Option.some.injEq]
  omega

/-- Inside a list a gap is the number of items in front of it. -/
theorem gap_natCast {length k : Nat} (h : k ≤ length) : gap length k = k := by
  simp [gap, h]

end JsxControl.Index
