import JsxControl.Expand.Construct
import JsxControl.Proofs.Exchange.Throughout

/-!
# Trees without locations

`Value.unlocated` is a tree without all that is known of where its nodes were read and of what was
read with them: their locations, ranges and extra members. Trees that differ in nothing else are
those that are the same without it.

Looking into a tree gives the same without locations, as long as no node has notes. A tree has none
when it is read, and no pass gives it any; a note could stand for a location.
-/

namespace JsxControl

open Entries

/-! ### Locations left out -/

mutual

/-- A value without the locations, ranges and extra members of its nodes. -/
def Value.unlocated : Value → Value
  | .scalar s => .scalar s
  | .list items => .list (Value.unlocatedItems items)
  | .record members => .record members
  | .node n => .node n.unlocated

/-- A node without its location, its range and its extra members, and without those of the nodes in
it. -/
def Node.unlocated : Node → Node
  | ⟨kind, fields, origin⟩ => ⟨kind, Value.unlocatedFields fields, { notes := origin.notes }⟩

/-- The items of a list without locations. -/
def Value.unlocatedItems : List Value → List Value
  | [] => []
  | item :: rest => item.unlocated :: Value.unlocatedItems rest

/-- The fields of a node without locations. -/
def Value.unlocatedFields : List (String × Value) → List (String × Value)
  | [] => []
  | (name, v) :: rest => (name, v.unlocated) :: Value.unlocatedFields rest

end

/-- A fault without the place that it was found at. -/
def Fault.unplaced : Fault → Fault
  | .complaint c => .complaint { c with place := none }
  | fault => fault

/-- No node in a value has notes. -/
abbrev Value.Noteless (v : Value) : Prop :=
  v.Throughout (fun n => n.origin.notes = []) fun _ => True

namespace Value

variable {v : Value}

@[simp] lemma unlocated_scalar (s : Scalar) : (Value.scalar s).unlocated = .scalar s := by
  rw [unlocated]

@[simp] lemma unlocated_record (members : List (String × Json)) :
    (Value.record members).unlocated = .record members := by
  rw [unlocated]

@[simp] lemma unlocated_node (n : Node) : (Value.node n).unlocated = .node n.unlocated := by
  rw [unlocated]

lemma unlocatedItems_eq_map (items : List Value) :
    unlocatedItems items = items.map unlocated := by
  induction items with
  | nil => rw [unlocatedItems, List.map_nil]
  | cons item rest ih => rw [unlocatedItems, ih, List.map_cons]

lemma unlocatedFields_eq_map (fields : List (String × Value)) :
    unlocatedFields fields = fields.map fun entry => (entry.1, entry.2.unlocated) := by
  induction fields with
  | nil => rw [unlocatedFields, List.map_nil]
  | cons entry rest ih =>
    obtain ⟨name, v⟩ := entry
    rw [unlocatedFields, ih, List.map_cons]

@[simp] lemma unlocated_list (items : List Value) :
    (Value.list items).unlocated = .list (items.map unlocated) := by
  rw [unlocated, unlocatedItems_eq_map]

end Value

namespace Node

@[simp] lemma unlocated_mk (kind : Kind) (fields : List (String × Value)) (origin : Origin) :
    (mk kind fields origin).unlocated =
      ⟨kind, fields.map fun entry => (entry.1, entry.2.unlocated), { notes := origin.notes }⟩ := by
  rw [unlocated, Value.unlocatedFields_eq_map]

@[simp] lemma kind_unlocated (n : Node) : n.unlocated.kind = n.kind := by
  cases n
  simp

@[simp] lemma fields_unlocated (n : Node) :
    n.unlocated.fields = n.fields.map fun entry => (entry.1, entry.2.unlocated) := by
  cases n
  simp

@[simp] lemma origin_unlocated (n : Node) :
    n.unlocated.origin = { notes := n.origin.notes } := by
  cases n
  simp

end Node

/-! ### Values without notes -/

/-- What holds of a value as soon as it holds of all that it consists of holds of every value. -/
@[elab_as_elim]
lemma Value.part_induction {motive : Value → Prop} (scalar : ∀ s, motive (.scalar s))
    (list : ∀ items, (∀ item ∈ items, motive item) → motive (.list items))
    (record : ∀ members, motive (.record members))
    (node : ∀ n : Node, (∀ entry ∈ n.fields, motive entry.2) → motive (.node n)) (v : Value) :
    motive v := by
  match v with
  | .scalar s => exact scalar s
  | .record members => exact record members
  | .list items =>
    exact list items fun item hitem => part_induction scalar list record node item
  | .node n => exact node n fun entry hentry => part_induction scalar list record node entry.2
termination_by sizeOf v
decreasing_by
  · have hlt := List.sizeOf_lt_of_mem hitem
    simp only [Value.list.sizeOf_spec]
    omega
  · have hlt := List.sizeOf_lt_of_mem hentry
    obtain ⟨kind, fields, origin⟩ := n
    obtain ⟨name, v⟩ := entry
    simp only [Value.node.sizeOf_spec, Node.mk.sizeOf_spec, Prod.mk.sizeOf_spec] at hlt ⊢
    omega

namespace Value

variable {v : Value}

lemma noteless_list {items : List Value} :
    (Value.list items).Noteless ↔ ∀ item ∈ items, item.Noteless :=
  ⟨fun h _ hitem => h.item hitem, .list⟩

lemma Noteless.unlocated (h : v.Noteless) : v.unlocated.Noteless := by
  induction h with
  | scalar s => simpa using Throughout.scalar s
  | record h => simpa using Throughout.record h
  | list _ ih =>
    rw [unlocated_list, noteless_list, List.forall_mem_map]
    exact ih
  | node h _ ih =>
    rw [unlocated_node]
    refine .node (by simpa using h) ?_
    rw [Node.fields_unlocated, List.forall_mem_map]
    exact ih

lemma noteless_of_unlocated (v : Value) (h : v.unlocated.Noteless) : v.Noteless := by
  induction v using part_induction with
  | scalar s => exact .scalar s
  | record members => exact .record trivial
  | list items ih =>
    rw [unlocated_list, noteless_list, List.forall_mem_map] at h
    exact .list fun item hitem => ih item hitem (h item hitem)
  | node n ih =>
    rw [unlocated_node] at h
    have hfields (entry : String × Value) (hentry : entry ∈ n.fields) :
        entry.2.unlocated.Noteless := by
      have hmem : (entry.1, entry.2.unlocated) ∈ n.unlocated.fields := by
        rw [Node.fields_unlocated]
        exact List.mem_map.mpr ⟨entry, hentry, rfl⟩
      exact h.field hmem
    exact .node (by simpa using h.here) fun entry hentry => ih entry hentry (hfields entry hentry)

/-- No node in a value was read from anywhere. -/
abbrev Placeless (v : Value) : Prop := v.Throughout (fun n => n.origin = {}) fun _ => True

lemma Placeless.noteless (h : v.Placeless) : v.Noteless :=
  h.imp (fun _ horigin => by rw [horigin]) fun _ => id

lemma Placeless.unlocated_eq (h : v.Placeless) : v.unlocated = v := by
  induction h with
  | scalar s => rw [unlocated_scalar]
  | record _ => rw [unlocated_record]
  | list _ ih => rw [unlocated_list, List.map_congr_left ih, List.map_id']
  | @node n horigin _ ih =>
    obtain ⟨kind, fields, origin⟩ := n
    have hfields : (fields.map fun field => (field.1, field.2.unlocated)) = fields := by
      rw [List.map_congr_left fun field hfield => by rw [ih field hfield], List.map_id']
    obtain rfl : origin = {} := horigin
    simp [hfields]

end Value

end JsxControl
