import JsxControl.Proofs.Acceptance.Chains
import JsxControl.Proofs.Acceptance.Desugared

/-!
# Accepted trees

What stands in the slots of a node is accepted if all branches stand where they may and all
constructs are well-formed. The attributes of a construct are judged as desugaring leaves them.
-/

namespace JsxControl

namespace Node

/-- A node stands in a slot of a tree that is accepted: if it is a construct, it is well-formed when
its own slots have been desugared. -/
def Sound (n : Node) : Prop := (Value.node n.desugar).WellFormed

/-- All slots of a node, at any depth, hold what is accepted. -/
structure Fine (n : Node) : Prop where
  placed : n.Everywhere BranchesPlaced
  sound : ∀ m, n.Contains m → m.Sound

end Node

/-- What stands in the slots of an accepted node, at any depth, is accepted. -/
lemma Node.Fine.inside {n m : Node} (h : n.Fine) (hm : n.Contains m) : m.Fine ∧ m.Sound := by
  refine ⟨⟨?_, ?_⟩, h.sound m hm⟩
  · exact fun l hl => h.placed l (hm.to_reflTransGen.trans hl)
  · exact fun l hl => h.sound l (hm.trans hl)

/-- What a content puts into slots is accepted, with all that it contains. -/
structure Value.Fine (v : Value) : Prop where
  placed : v.BranchesPlaced
  slots : ∀ m ∈ v.slotNodes, m.Fine ∧ m.Sound

/-- A node is accepted if the contents of its fields are. -/
lemma Node.fine_iff {n : Node} : n.Fine ↔ ∀ entry ∈ n.fields, entry.2.Fine := by
  constructor
  · rintro ⟨hplaced, hsound⟩ entry hentry
    refine ⟨hplaced.here entry hentry, ?_⟩
    intro m hm
    have hholds : n.Holds m := ⟨entry, hentry, hm⟩
    exact ⟨⟨hplaced.field hentry m hm, fun l hl => hsound l (.head hholds hl)⟩,
      hsound m (.single hholds)⟩
  · intro h
    refine ⟨everywhere_iff.mpr ⟨fun entry hentry => (h entry hentry).placed, ?_⟩, ?_⟩
    · exact fun entry hentry m hm => ((h entry hentry).slots m hm).1.placed
    · intro m hm
      obtain ⟨l, ⟨entry, hentry, hl⟩, hlm⟩ := Relation.TransGen.head'_iff.mp hm
      obtain ⟨hfine, hsound⟩ := (h entry hentry).slots l hl
      rcases Relation.reflTransGen_iff_eq_or_transGen.mp hlm with rfl | hlm
      · exact hsound
      · exact hfine.sound m hlm

/-! ### Lists -/

/-- Whether the branches of a list have their chains depends on the tags of the items. -/
lemma chained_map_iff {f : Value → Value} {opened : Bool} {items : List Value}
    (h : ∀ item ∈ items, (f item).construct? = item.construct?) :
    Chained opened (items.map f) ↔ Chained opened items := by
  induction items generalizing opened with
  | nil => rfl
  | cons item rest ih =>
    rw [List.forall_mem_cons] at h
    rw [List.map_cons, Chained, Chained, ih h.2, Value.Continues, Value.Continues, Value.opens,
      Value.opens, h.1]

/-- The branches of a list have their chains after desugaring if they had them before. -/
lemma chained_desugarItems {items : List Value}
    (hitems : ∀ n : Node, .node n ∈ items → n.Everywhere Node.Orderly)
    (hplaced : BranchesFollow items) : Chained false (items.map Value.desugarItem) := by
  rw [chained_map_iff]
  · exact branchesFollow_iff_chained.mp hplaced
  · intro item hitem
    cases item with
    | node n => exact Node.construct?_desugar (hitems n hitem)
    | scalar | list | record => rfl

namespace Expand

lemma isTagOf_eq {v : Value} (h : ∀ n : Node, v = .node n → n.Everywhere Node.Grammatical)
    (c : Construct) : c.isTagOf v = .ok (decide (v.construct? = some c)) := by
  have hok : ∃ b, c.isTagOf v = .ok b := by
    cases v with
    | node n =>
      obtain ⟨s, hs⟩ := Node.tagName_eq_ok (h n rfl)
      cases s <;> exact ⟨_, by simp only [Construct.isTagOf, hs, ok_bind]; rfl⟩
    | scalar | list | record => exact ⟨false, rfl⟩
  obtain ⟨b, hb⟩ := hok
  rw [hb, Bool.eq_iff_iff.mpr ((Construct.isTagOf_eq_ok_iff hb).trans decide_eq_true_iff.symm)]

lemma runLength_eq {rest : List Value}
    (h : ∀ n : Node, .node n ∈ rest → n.Everywhere Node.Grammatical) :
    runLength rest = .ok (Desugar.run rest) := by
  have hok : ∃ run, runLength rest = .ok run := by
    induction rest with
    | nil => exact ⟨0, rfl⟩
    | cons item rest ih =>
      obtain ⟨run, hrun⟩ := ih fun n hn => h n (by simp [hn])
      have htag := isTagOf_eq fun n (hn : item = .node n) => h n (by simp [hn])
      by_cases hnext : item.construct? = some .otherwiseWhen
      · exact ⟨run + 1, by simp [runLength, htag, hnext, hrun]⟩
      · by_cases hlast : item.construct? = some .otherwise
        · exact ⟨1, by simp [runLength, htag, hlast]⟩
        · exact ⟨0, by simp [runLength, htag, hnext, hlast]⟩
  obtain ⟨run, hrun⟩ := hok
  rw [hrun, runLength_eq_run hrun]

lemma taken_desugarItem {n : Node} {rest : List Value}
    (hn : n.Everywhere Node.Grammatical)
    (hrest : ∀ n : Node, .node n ∈ rest → n.Everywhere Node.Grammatical) :
    Desugar.taken (.node n.desugar) (rest.map Value.desugarItem) =
      Desugar.taken (.node n) rest := by
  rw [Desugar.taken, Desugar.taken, Node.construct?_desugar hn.orderly,
    Desugar.run_desugarItems fun m hm => (hrest m hm).orderly]

/-- A node that opens no chain takes no branches. -/
lemma map_taken_eq_nil {n : Node} {rest : List Value} (hn : n.Everywhere Node.Grammatical)
    (h : (Value.node n.desugar).construct? ≠ some .whenTrue) :
    (rest.take (Desugar.taken (.node n) rest)).map Value.desugarItem = [] := by
  rw [Node.construct?_desugar hn.orderly] at h
  simp [Desugar.taken, h]

/-- The branches that an item takes are nodes of the tree. -/
lemma grammatical_of_taken {n : Node} {rest : List Value}
    (hrest : ∀ m : Node, .node m ∈ rest → m.Everywhere Node.Grammatical) :
    ∀ v ∈ rest.take (Desugar.taken (.node n) rest), v.Everywhere Node.Grammatical := by
  intro v hv
  obtain ⟨m, rfl⟩ := (Desugar.continues_of_mem_taken v hv).eq_node
  simpa using hrest m (List.mem_of_mem_take hv)

/-- The branches that an item takes, once their slots are desugared. -/
lemma branches_of_taken {n : Node} {rest : List Value}
    (hrest : ∀ n : Node, .node n ∈ rest → n.Everywhere Node.Grammatical)
    (hfine : ∀ m : Node, .node m ∈ rest.take (Desugar.taken (.node n) rest) → m.Fine) :
    Branches ((rest.take (Desugar.taken (.node n) rest)).map Value.desugarItem) := by
  intro e he
  obtain ⟨item, hitem, rfl⟩ := List.mem_map.mp he
  have hcontinues : item.Continues := Desugar.continues_of_mem_taken item hitem
  obtain ⟨m, rfl⟩ := hcontinues.eq_node
  have hm := hrest m (List.mem_of_mem_take hitem)
  refine ⟨m.desugar, rfl, m.grammatical_desugar hm (hfine m hitem).sound, ?_⟩
  rwa [Value.desugarItem, Node.continues_desugar hm.orderly]

lemma wellFormed_map_iff {items : List Value} :
    (∀ e ∈ items.map Value.desugarItem, e.WellFormed) ↔
      ∀ m : Node, .node m ∈ items → m.Sound := by
  constructor
  · exact fun h m hm => h _ (List.mem_map.mpr ⟨_, hm, rfl⟩)
  · intro h e he
    rcases Value.mem_desugarItem he with ⟨hnone, -⟩ | ⟨m, rfl, hm⟩
    · cases e with
      | node => simp [Value.node?] at hnone
      | scalar | list | record => simp [Value.WellFormed]
    · exact h m hm

/-- What is asked of an item, of its branches and of the rest of a list is asked of the list. -/
lemma fine_cons_iff {n : Node} {rest : List Value}
    (hn : n.Everywhere Node.Grammatical) :
    (∀ m : Node, .node m ∈ .node n :: rest → m.Fine ∧ m.Sound) ∧ Chained false (.node n :: rest) ↔
      n.Fine ∧ (∀ m : Node, .node m ∈ rest.take (Desugar.taken (.node n) rest) → m.Fine) ∧
        (¬ (Value.node n.desugar).Continues ∧ n.Sound ∧
          ∀ e ∈ (rest.take (Desugar.taken (.node n) rest)).map Value.desugarItem, e.WellFormed) ∧
        (∀ m : Node, .node m ∈ rest.drop (Desugar.taken (.node n) rest) → m.Fine ∧ m.Sound) ∧
        Chained false (rest.drop (Desugar.taken (.node n) rest)) := by
  have hmem (m : Node) : .node m ∈ rest ↔ .node m ∈ rest.take (Desugar.taken (.node n) rest) ∨
      .node m ∈ rest.drop (Desugar.taken (.node n) rest) := by
    rw [← List.mem_append, List.take_append_drop]
  rw [chained_cons_iff, wellFormed_map_iff, Node.continues_desugar hn.orderly]
  constructor
  · rintro ⟨hall, hplaced, hdrop⟩
    have hrest (m : Node) (hm : .node m ∈ rest) : m.Fine ∧ m.Sound := hall m (by simp [hm])
    obtain ⟨hfine, hsound⟩ := hall n (by simp)
    exact ⟨hfine, fun m hm => (hrest m (List.mem_of_mem_take hm)).1, ⟨hplaced, hsound,
      fun m hm => (hrest m (List.mem_of_mem_take hm)).2⟩,
      fun m hm => hrest m (List.mem_of_mem_drop hm), hdrop⟩
  · rintro ⟨hfine, htaken, ⟨hplaced, hsound, htakenSound⟩, hdropped, hdrop⟩
    refine ⟨fun m hm => ?_, hplaced, hdrop⟩
    rcases List.mem_cons.mp hm with hm | hm
    · obtain rfl := Value.node.inj hm
      exact ⟨hfine, hsound⟩
    · rcases (hmem m).mp hm with hm | hm
      · exact ⟨htaken m hm, htakenSound m hm⟩
      · exact hdropped m hm

end Expand

end JsxControl
