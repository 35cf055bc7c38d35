import JsxControl.Proofs.Acceptance.Pass
import Mathlib.Data.List.Flatten

/-!
# Marks

To follow nodes through a pass, they are marked by their origins: nodes that the library makes have
none, and bear no mark. The marks of a tree are listed in the order of its nodes, so that what is
lost, kept twice or moved past something else can be read off the list.
-/

namespace JsxControl

/-- Marks for nodes by their origins. What has no origin bears no mark. -/
structure Marking (μ : Type) where
  mark? : Origin → Option μ
  mark?_new : mark? {} = none

variable {μ : Type} (k : Marking μ)

/-- The mark of a value, if it is a node that bears one. -/
def Value.ownMark : Value → List μ
  | .node n => (k.mark? n.origin).toList
  | _ => []

mutual

/-- The marks of a node and of all in it. -/
def Node.marks : Node → List μ
  | ⟨_, fields, origin⟩ => (k.mark? origin).toList ++ Node.marksOfFields fields

/-- The marks in the fields of a node. -/
def Node.marksOfFields : List (String × Value) → List μ
  | [] => []
  | (_, v) :: rest => Value.marks v ++ Node.marksOfFields rest

/-- The marks of all in a value. Lists within lists count as well. -/
def Value.marks : Value → List μ
  | .scalar _ => []
  | .record _ => []
  | .list items => Value.marksOfItems items
  | .node n => Node.marks n

/-- The marks in the items of a list. -/
def Value.marksOfItems : List Value → List μ
  | [] => []
  | item :: rest => Value.marks item ++ Value.marksOfItems rest

end

@[simp] lemma Value.marks_scalar (s : Scalar) : (Value.scalar s).marks k = [] := by
  rw [marks]

@[simp] lemma Value.marks_record (members : List (String × Json)) :
    (Value.record members).marks k = [] := by
  rw [marks]

@[simp] lemma Value.marks_node (n : Node) : (Value.node n).marks k = n.marks k := by
  rw [marks]

@[simp] lemma Value.marks_list (items : List Value) :
    (Value.list items).marks k = items.flatMap (Value.marks k) := by
  rw [marks]
  induction items with
  | nil => rfl
  | cons item rest ih => rw [marksOfItems, ih, List.flatMap_cons]

lemma Node.marks_eq (n : Node) : n.marks k =
    (k.mark? n.origin).toList ++ n.fields.flatMap fun entry => entry.2.marks k := by
  obtain ⟨kind, fields, origin⟩ := n
  rw [marks]
  congr 1
  induction fields with
  | nil => rfl
  | cons entry rest ih =>
    obtain ⟨name, v⟩ := entry
    rw [marksOfFields, ih, List.flatMap_cons]

variable {k}

lemma sublist_flatMap_of_mem {α : Type} {list : List α} (f : α → List μ) {a : α} (h : a ∈ list) :
    (f a).Sublist (list.flatMap f) := by
  simpa using (List.singleton_sublist.mpr h).flatMap f

lemma Value.marks_sublist_of_mem_slotNodes {v : Value} {m : Node} (h : m ∈ v.slotNodes) :
    (m.marks k).Sublist (v.marks k) := by
  cases v with
  | node n =>
    obtain rfl : m = n := by simpa [slotNodes] using h
    simp
  | list items =>
    simpa using sublist_flatMap_of_mem (Value.marks k) (mem_slotNodes_list.mp h)
  | scalar | record => simp [slotNodes] at h

lemma Node.Holds.marks_sublist {n m : Node} (h : n.Holds m) : (m.marks k).Sublist (n.marks k) := by
  obtain ⟨entry, hentry, hm⟩ := h
  rw [marks_eq k n]
  exact (Value.marks_sublist_of_mem_slotNodes hm).trans
    ((sublist_flatMap_of_mem (fun entry => entry.2.marks k) hentry).trans
      (List.sublist_append_right _ _))

/-- The marks of what a node contains are a part of its marks. -/
lemma Node.marks_sublist_of_reach {n m : Node} (h : Relation.ReflTransGen Holds n m) :
    (m.marks k).Sublist (n.marks k) := by
  induction h with
  | refl => exact List.Sublist.refl _
  | tail _ hlast ih => exact hlast.marks_sublist.trans ih

/-! ### Losses -/

/-- Of the marks `before` those in `after` are left, up to order, and those that are lost are the
ones for which `gone` holds. -/
def Loses (before after : List μ) (gone : μ → Prop) : Prop :=
  ∃ lost, before.Perm (after ++ lost) ∧ ∀ x, x ∈ lost ↔ gone x

namespace Loses

variable {before after before' after' : List μ} {gone gone' : μ → Prop}

lemma refl (list : List μ) : Loses list list fun _ => False := ⟨[], by simp, by simp⟩

lemma congr (h : Loses before after gone) (hgone : ∀ x, gone x ↔ gone' x) :
    Loses before after gone' := by
  obtain ⟨lost, hperm, hlost⟩ := h
  exact ⟨lost, hperm, fun x => (hlost x).trans (hgone x)⟩

lemma append (h : Loses before after gone) (h' : Loses before' after' gone') :
    Loses (before ++ before') (after ++ after') fun x => gone x ∨ gone' x := by
  obtain ⟨lost, hperm, hlost⟩ := h
  obtain ⟨lost', hperm', hlost'⟩ := h'
  refine ⟨lost ++ lost', (hperm.append hperm').trans ?_, by simp [hlost, hlost']⟩
  rw [List.append_assoc, List.append_assoc]
  refine List.Perm.append_left after ?_
  rw [← List.append_assoc, ← List.append_assoc]
  exact List.perm_append_comm.append_right lost'

/-- What is lost in two steps is lost in one of them. -/
lemma trans (h : Loses before after gone) (h' : Loses after after' gone') :
    Loses before after' fun x => gone x ∨ gone' x := by
  obtain ⟨lost, hperm, hlost⟩ := h
  obtain ⟨lost', hperm', hlost'⟩ := h'
  refine ⟨lost' ++ lost, hperm.trans ?_, by simp [hlost, hlost', or_comm]⟩
  rw [← List.append_assoc]
  exact hperm'.append_right lost

lemma flatMap {α : Type} {list : List α} {f g : α → List μ} {lost : α → μ → Prop}
    (h : ∀ a ∈ list, Loses (f a) (g a) (lost a)) :
    Loses (list.flatMap f) (list.flatMap g) fun x => ∃ a ∈ list, lost a x := by
  induction list with
  | nil => exact ⟨[], by simp, by simp⟩
  | cons a rest ih =>
    rw [List.forall_mem_cons] at h
    exact (h.1.append (ih h.2)).congr (by simp)

lemma mem_iff (h : Loses before after gone) (x : μ) : x ∈ before ↔ x ∈ after ∨ gone x := by
  obtain ⟨lost, hperm, hlost⟩ := h
  rw [hperm.mem_iff, List.mem_append, hlost]

lemma subset (h : Loses before after gone) : after ⊆ before :=
  fun x hx => (h.mem_iff x).mpr (.inl hx)

lemma nodup (h : Loses before after gone) (hbefore : before.Nodup) : after.Nodup := by
  obtain ⟨lost, hperm, -⟩ := h
  exact (List.nodup_append.mp (hperm.nodup_iff.mp hbefore)).1

/-- Where no mark occurs twice, none is both left and lost. -/
lemma not_gone (h : Loses before after gone) (hbefore : before.Nodup) {x : μ} (hx : x ∈ after) :
    ¬ gone x := by
  obtain ⟨lost, hperm, hlost⟩ := h
  rw [← hlost]
  exact fun hgone => (List.nodup_append.mp (hperm.nodup_iff.mp hbefore)).2.2 x hx x hgone rfl

end Loses

end JsxControl
