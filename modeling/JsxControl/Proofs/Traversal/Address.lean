import JsxControl.Tree.Basic
import Mathlib.Tactic.Common

/-!
# Addresses of nodes

An address leads from a node down to one of those that it contains, slot by slot. Addresses are
compared in post-order: what stands below a node comes before it, and of two slots the one in an
earlier field, or earlier in the same list, comes first.
-/

namespace JsxControl

/-- A slot of a node, by the number of its field and the number of the item in the list that the
field holds. A field that holds a node is the slot with the number zero. -/
structure Step where
  field : Nat
  item : Nat
  deriving DecidableEq

/-- The way from a node down to another, by the slots that it leads through. -/
abbrev Address := List Step

/-! ### Nodes at addresses -/

/-- The node in a slot that the content of a field makes. -/
def Value.slot? (item : Nat) : Value → Option Node
  | .node n => if item = 0 then some n else none
  | .list items => items[item]?.bind Value.node?
  | .scalar _ | .record _ => none

namespace Node

/-- The node in a slot of a node. -/
def child? (n : Node) (step : Step) : Option Node :=
  n.fields[step.field]?.bind fun entry => entry.2.slot? step.item

/-- The node at an address below another one. -/
def at? (n : Node) : Address → Option Node
  | [] => some n
  | step :: rest => (n.child? step).bind fun m => m.at? rest

lemma child?_of_entry {n : Node} {i : Nat} {key : String} {v : Value}
    (h : n.fields[i]? = some (key, v)) (j : Nat) : n.child? ⟨i, j⟩ = v.slot? j := by
  simp [child?, h]

lemma at?_cons {n m : Node} {step : Step} (h : n.child? step = some m) (p : Address) :
    n.at? (step :: p) = m.at? p := by
  simp [at?, h]

lemma at?_cons_of_none {n : Node} {step : Step} (h : n.child? step = none) (p : Address) :
    n.at? (step :: p) = none := by
  simp [at?, h]

end Node

/-! ### Post-order -/

namespace Address

/-- One address comes before another in post-order. -/
inductive Precedes : Address → Address → Prop
  | under (step : Step) (p : Address) : Precedes (step :: p) []
  | earlierField {step step' : Step} (h : step.field < step'.field) (p q : Address) :
    Precedes (step :: p) (step' :: q)
  | earlierItem {i j j' : Nat} (h : j < j') (p q : Address) : Precedes (⟨i, j⟩ :: p) (⟨i, j'⟩ :: q)
  | inside {p q : Address} (step : Step) (h : Precedes p q) : Precedes (step :: p) (step :: q)

/-- An address is at or below one of the next `count` items behind an item of a list. -/
inductive Follows (count : Nat) : Address → Address → Prop
  | behind {i j j' : Nat} (h : j < j') (hcount : j' ≤ j + count) (p : Address) :
    Follows count [⟨i, j⟩] (⟨i, j'⟩ :: p)
  | inside {p q : Address} (step : Step) (h : Follows count p q) :
    Follows count (step :: p) (step :: q)

variable {count : Nat} {p q : Address} {step : Step}

lemma Precedes.asymm (h : Precedes p q) : ¬ Precedes q p := by
  induction h with
  | under => nofun
  | earlierField h =>
    intro h'
    cases h' with
    | earlierField h' => omega
    | earlierItem => simp at h
    | inside => omega
  | earlierItem h =>
    intro h'
    cases h' with
    | earlierField h' => simp at h'
    | earlierItem h' => omega
    | inside => omega
  | inside step _ ih =>
    intro h'
    cases h' with
    | earlierField h' => omega
    | earlierItem h' => omega
    | inside _ h' => exact ih h'

lemma Precedes.ne (h : Precedes p q) : p ≠ q := by
  rintro rfl
  exact h.asymm h

lemma Follows.precedes (h : Follows count p q) : Precedes p q := by
  induction h with
  | behind h => exact .earlierItem h _ _
  | inside step _ ih => exact .inside step ih

lemma not_follows_nil : ¬ Follows count p [] := nofun

/-- What follows an address is in the same slot, or in one of the next items if the address is that
of an item. -/
lemma follows_cons_iff {step' : Step} :
    Follows count (step :: p) (step' :: q) ↔
      step' = step ∧ Follows count p q ∨
        p = [] ∧ step'.field = step.field ∧ step.item < step'.item ∧
          step'.item ≤ step.item + count := by
  constructor
  · intro h
    cases h with
    | behind h hcount => exact .inr ⟨rfl, rfl, h, hcount⟩
    | inside _ h => exact .inl ⟨rfl, h⟩
  · rintro (⟨rfl, h⟩ | ⟨rfl, hfield, h, hcount⟩)
    · exact .inside _ h
    · obtain ⟨i, j⟩ := step
      obtain ⟨i', j'⟩ := step'
      obtain rfl : i' = i := hfield
      exact .behind h hcount q

@[simp] lemma follows_cons_self : Follows count (step :: p) (step :: q) ↔ Follows count p q := by
  simp [follows_cons_iff]

instance Follows.decidable : (p q : Address) → Decidable (Follows count p q)
  | [], _ => isFalse nofun
  | _ :: _, [] => isFalse nofun
  | _ :: p, _ :: q =>
    have := Follows.decidable p q
    decidable_of_iff _ follows_cons_iff.symm

/-! ### Parts of a tree -/

/-- Addresses in the field `i`, at or below the items from `j` on. -/
def InItems (i j : Nat) (p : Address) : Prop := ∃ item rest, p = ⟨i, item⟩ :: rest ∧ j ≤ item

lemma InItems.mono {i j j' : Nat} (h : InItems i j' p) (hj : j ≤ j') : InItems i j p := by
  obtain ⟨item, rest, rfl, hitem⟩ := h
  exact ⟨item, rest, rfl, Nat.le_trans hj hitem⟩

/-- Addresses in the fields from `i` on. -/
def InFields (i : Nat) (p : Address) : Prop := ∃ step rest, p = step :: rest ∧ i ≤ step.field

end Address

end JsxControl
