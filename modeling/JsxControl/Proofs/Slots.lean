import JsxControl.Tree.Access
import Mathlib.Logic.Relation
import Mathlib.Tactic.Common

/-!
# Slots

A slot of a node is a field that holds a node, or a place in a list that a field holds. Lists within
lists are no slots, and neither are the members of a record. `Node.Holds` is the relation from a
node to those in its slots, `Node.Contains` its transitive closure. `Node.Everywhere P` says that
`P` holds of a node and of all that it contains; it is what is shown of a whole tree by induction on
slots.
-/

namespace JsxControl

variable {P Q : Node → Prop}

/-- The nodes in the slots that a field with the given content makes. -/
def Value.slotNodes : Value → List Node
  | .node n => [n]
  | .list items => items.filterMap Value.node?
  | .scalar _ | .record _ => []

namespace Node

/-- A node stands in a slot of another. -/
def Holds (n m : Node) : Prop := ∃ entry ∈ n.fields, m ∈ entry.2.slotNodes

/-- A node stands in a slot at some depth of another. -/
def Contains : Node → Node → Prop := Relation.TransGen Holds

/-- A property of a node and of all that it contains. -/
def Everywhere (P : Node → Prop) (n : Node) : Prop := ∀ m, Relation.ReflTransGen Holds n m → P m

end Node

/-- A property of all nodes in the slots that a content makes, and of all that they contain. -/
def Value.Everywhere (P : Node → Prop) (v : Value) : Prop := ∀ m ∈ v.slotNodes, m.Everywhere P

/-! ### Contents -/

@[simp] lemma Value.mem_slotNodes_list {items : List Value} {m : Node} :
    m ∈ (Value.list items).slotNodes ↔ .node m ∈ items := by
  simp only [slotNodes, List.mem_filterMap]
  constructor
  · rintro ⟨v, hv, hm⟩
    cases v with
    | node n =>
      obtain rfl : n = m := by simpa [node?] using hm
      exact hv
    | scalar | list | record => simp [node?] at hm
  · intro h
    exact ⟨_, h, rfl⟩

@[simp] lemma Value.everywhere_scalar (s : Scalar) : (Value.scalar s).Everywhere P := by
  simp [Everywhere, slotNodes]

@[simp] lemma Value.everywhere_record (members : List (String × Json)) :
    (Value.record members).Everywhere P := by
  simp [Everywhere, slotNodes]

@[simp] lemma Value.everywhere_node (n : Node) :
    (Value.node n).Everywhere P ↔ n.Everywhere P := by
  simp [Everywhere, slotNodes]

lemma Value.everywhere_list {items : List Value} :
    (Value.list items).Everywhere P ↔ ∀ n, .node n ∈ items → n.Everywhere P := by
  simp [Everywhere]

lemma Value.Everywhere.of_items {items : List Value} (h : ∀ item ∈ items, item.Everywhere P) :
    (Value.list items).Everywhere P := by
  rw [everywhere_list]
  intro n hn
  simpa using h _ hn

lemma Value.Everywhere.singleton {v : Value} (h : v.Everywhere P) :
    (Value.list [v]).Everywhere P :=
  .of_items (by simpa using h)

/-! ### Nodes -/

lemma Node.everywhere_iff {n : Node} :
    n.Everywhere P ↔ P n ∧ ∀ entry ∈ n.fields, entry.2.Everywhere P := by
  constructor
  · intro h
    refine ⟨h n .refl, fun entry hentry m hm l hl => h l ?_⟩
    exact Relation.ReflTransGen.head ⟨entry, hentry, hm⟩ hl
  · rintro ⟨hn, hfields⟩ m hm
    obtain rfl | ⟨l, ⟨entry, hentry, hl⟩, hlm⟩ := hm.cases_head
    · exact hn
    · exact hfields entry hentry l hl m hlm

lemma Node.Everywhere.here {n : Node} (h : n.Everywhere P) : P n := h n .refl

lemma Node.Everywhere.field {n : Node} (h : n.Everywhere P) {entry : String × Value}
    (hentry : entry ∈ n.fields) : entry.2.Everywhere P :=
  (Node.everywhere_iff.mp h).2 entry hentry

lemma Node.Everywhere.imp {n : Node} (h : n.Everywhere P) (hPQ : ∀ m, P m → Q m) :
    n.Everywhere Q := fun m hm => hPQ m (h m hm)

lemma Node.Everywhere.of_contains {n m : Node} (h : n.Everywhere P) (hm : n.Contains m) : P m :=
  h m hm.to_reflTransGen

/-! ### Induction on slots -/

lemma Value.sizeOf_lt_of_mem_slotNodes {v : Value} {m : Node} (h : m ∈ v.slotNodes) :
    sizeOf m < sizeOf v := by
  cases v with
  | node n =>
    obtain rfl : m = n := by simpa [slotNodes] using h
    simp
  | list items =>
    have hm := List.sizeOf_lt_of_mem (Value.mem_slotNodes_list.mp h)
    simp only [Value.list.sizeOf_spec, Value.node.sizeOf_spec] at hm ⊢
    omega
  | scalar | record => simp [slotNodes] at h

lemma Node.Holds.sizeOf_lt {n m : Node} (h : n.Holds m) : sizeOf m < sizeOf n := by
  obtain ⟨⟨name, v⟩, hentry, hm⟩ := h
  have hfield := List.sizeOf_lt_of_mem hentry
  have hv := Value.sizeOf_lt_of_mem_slotNodes hm
  obtain ⟨kind, fields, origin⟩ := n
  simp only [Node.mk.sizeOf_spec, Prod.mk.sizeOf_spec] at hfield hv ⊢
  omega

/-- What holds of a node as soon as it holds of all nodes in its slots holds of every node. -/
lemma Node.slot_induction {motive : Node → Prop}
    (step : ∀ n, (∀ m, n.Holds m → motive m) → motive n) (n : Node) : motive n :=
  step n fun m _ => slot_induction step m
termination_by sizeOf n
decreasing_by exact Node.Holds.sizeOf_lt ‹_›

end JsxControl
