import JsxControl.Proofs.Acceptance.Fine
import JsxControl.Proofs.Acceptance.WellFormed
import JsxControl.Proofs.Complaints.Order

/-!
# What a pass answers

A pass over the slots of a grammatical node complains of the first construct, in the order in which
they are judged, that has a breach. There is none exactly if the slots are accepted; then they are
desugared.
-/

namespace JsxControl

open Occurrence Expand

variable {traced : Bool} {holder : Value}

/-! ### What is not complained of -/

/-- A construct is judged when its slots have been desugared. -/
lemma Occurrence.complaint?_ofValue? {v : Value} (hv : v.Everywhere Node.Grammatical)
    (chain : List Value) : (ofValue? holder chain v).bind complaint? =
      Value.complaint? holder (!chain.isEmpty) v.desugarItem := by
  cases v with
  | node n =>
    have hn : n.Everywhere Node.Grammatical := by simpa using hv
    have hdesugar := Node.construct?_desugar hn.orderly
    by_cases hc : (Value.node n).construct? = none
    · simp [ofValue?, hc, Value.complaint?, Value.breach?, Value.desugarItem, hdesugar]
    · simp [ofValue?, hc, Occurrence.complaint?, Value.desugarItem]
  | scalar | list | record =>
    simp [ofValue?, Value.complaint?, Value.breach?, Value.desugarItem]

lemma Occurrence.findSome?_judged {n : Node} {taken : List Value}
    (hn : n.Everywhere Node.Grammatical) (htaken : ∀ v ∈ taken, v.Everywhere Node.Grammatical) :
    (judged holder (.node n) taken).findSome? complaint? =
      (Value.node n.desugar :: taken.map Value.desugarItem).reverse.findSome?
        (Value.complaint? holder ((Value.node n.desugar).construct? = some .whenTrue)) := by
  have hclaimed : (decide ((Value.node n.desugar).construct? = some .whenTrue)) =
      !(if (Value.node n).construct? = some .whenTrue then Value.node n :: taken
        else []).isEmpty := by
    rw [Node.construct?_desugar hn.orderly]
    by_cases hc : (Value.node n).construct? = some .whenTrue <;> simp [hc]
  have hmap : Value.node n.desugar :: taken.map Value.desugarItem =
      (.node n :: taken).map Value.desugarItem := rfl
  rw [judged, hmap, ← List.map_reverse, List.findSome?_map, hclaimed, ← List.head?_filterMap,
    List.filterMap_filterMap, ← List.head?_filterMap]
  congr 1
  apply List.filterMap_congr
  intro v hv
  refine complaint?_ofValue? ?_ _
  rcases List.mem_cons.mp (List.mem_reverse.mp hv) with rfl | hv
  · simpa using hn
  · exact htaken v hv

lemma Occurrence.no_complaint_flatMap {α : Type} {list : List α} {f : α → List Occurrence} :
    (list.flatMap f).findSome? complaint? = none ↔
      ∀ x ∈ list, (f x).findSome? complaint? = none := by
  simp only [List.findSome?_eq_none_iff, List.mem_flatMap]
  exact ⟨fun h x hx o ho => h o ⟨x, hx, ho⟩, fun h o ⟨x, hx, ho⟩ => h x hx o ho⟩

/-- Nothing is complained of inside some values exactly if the slots of each are accepted. -/
lemma Occurrence.no_complaint_inside {values : List Value}
    (ih : ∀ n : Node, .node n ∈ values → (n.occurrences.findSome? complaint? = none ↔ n.Fine)) :
    (values.flatMap Value.inside).findSome? complaint? = none ↔
      ∀ m : Node, .node m ∈ values → m.Fine := by
  rw [no_complaint_flatMap]
  refine ⟨fun h m hm => (ih m hm).mp (h _ hm), fun h v hv => ?_⟩
  cases v with
  | node m => exact (ih m hv).mpr (h m hv)
  | scalar | list | record => rfl

/-- What is judged with an item, once its slots and those of its branches are accepted. -/
lemma Occurrence.no_complaint_judged {n : Node} (hn : n.Everywhere Node.Grammatical)
    (rest : List Value) (hrest : ∀ m : Node, .node m ∈ rest → m.Everywhere Node.Grammatical)
    (hfine : n.Fine)
    (htaken : ∀ m : Node, .node m ∈ rest.take (Desugar.taken (.node n) rest) → m.Fine) :
    (judged holder (.node n) (rest.take (Desugar.taken (.node n) rest))).findSome? complaint? =
        none ↔
      ¬ (Value.node n.desugar).Continues ∧ n.Sound ∧
        ∀ e ∈ (rest.take (Desugar.taken (.node n) rest)).map Value.desugarItem, e.WellFormed := by
  have hgrammatical := n.grammatical_desugar hn hfine.sound
  rw [findSome?_judged hn (grammatical_of_taken hrest),
    Value.no_complaint_iff hgrammatical (branches_of_taken hrest htaken) (map_taken_eq_nil hn)]
  rfl

/-- If nothing is complained of inside the items of a list exactly when they are accepted, nothing
is complained of in the list exactly when it is. -/
lemma Occurrence.no_complaint_inList {items : List Value}
    (hitems : ∀ n : Node, .node n ∈ items → n.Everywhere Node.Grammatical)
    (ih : ∀ n : Node, .node n ∈ items → (n.occurrences.findSome? complaint? = none ↔ n.Fine)) :
    (inList holder items).findSome? complaint? = none ↔
      (∀ n : Node, .node n ∈ items → n.Fine ∧ n.Sound) ∧ Chained false items := by
  induction items using Desugar.taken_induction with
  | nil => simp [Chained]
  | cons item rest ihrest =>
    have hdrop {k : ℕ} {n : Node} (hn : .node n ∈ rest.drop k) : .node n ∈ item :: rest :=
      List.mem_cons_of_mem _ (List.mem_of_mem_drop hn)
    have htail := ihrest (fun n hn => hitems n (hdrop hn)) fun n hn => ih n (hdrop hn)
    cases item with
    | node n =>
      have hn := hitems n (by simp)
      have hrest (m : Node) (hm : .node m ∈ rest) : m.Everywhere Node.Grammatical :=
        hitems m (by simp [hm])
      have hbranches := no_complaint_inside fun m hm =>
        ih m (List.mem_cons_of_mem _ (List.mem_of_mem_take (i := Desugar.taken (.node n) rest) hm))
      rw [fine_cons_iff hn, inList_cons]
      simp only [List.findSome?_append, Option.or_eq_none_iff, and_assoc]
      rw [Value.inside_node, ih n (by simp), hbranches, htail]
      refine and_congr_right fun hfine => and_congr_right fun htaken => ?_
      rw [no_complaint_judged hn rest hrest hfine htaken, and_assoc, and_assoc]
    | scalar | list | record =>
      rw [Desugar.taken_of_not_node rfl, List.drop_zero] at htail
      rw [inList_of_not_node rfl, htail, chained_cons_iff]
      simp [Value.Continues, Desugar.taken]

lemma Value.no_complaint_iff_fine {v : Value} (hv : v.Everywhere Node.Grammatical)
    (ih : ∀ m ∈ v.slotNodes, (m.occurrences.findSome? Occurrence.complaint? = none ↔ m.Fine)) :
    (occurrences holder v).findSome? Occurrence.complaint? = none ↔ v.Fine := by
  cases v with
  | scalar | record =>
    rw [occurrences]
    exact iff_of_true rfl ⟨trivial, by simp [slotNodes]⟩
  | list items =>
    have hitems : (inList holder items).findSome? Occurrence.complaint? = none ↔ _ :=
      no_complaint_inList (everywhere_list.mp hv) fun n hn => ih n (by simpa using hn)
    rw [occurrences_list, hitems, ← branchesFollow_iff_chained, and_comm]
    constructor
    · exact fun h => ⟨h.1, fun n hn => h.2 n (by simpa using hn)⟩
    · exact fun h => ⟨h.placed, fun n hn => h.slots n (by simpa using hn)⟩
  | node n =>
    have hn : n.Everywhere Node.Grammatical := by simpa using hv
    have hjudged (hfine : n.Fine) : (judged holder (.node n) []).findSome? Occurrence.complaint? =
        none ↔ ¬ (Value.node n.desugar).Continues ∧ n.Sound := by
      simpa using no_complaint_judged hn [] (by simp) hfine (by simp)
    rw [occurrences, List.findSome?_append, Option.or_eq_none_iff, ih n (by simp [slotNodes]),
      and_congr_right hjudged, Node.continues_desugar hn.orderly]
    constructor
    · rintro ⟨hfine, hplaced, hsound⟩
      refine ⟨hplaced, fun m hm => ?_⟩
      obtain rfl : m = n := by simpa [slotNodes] using hm
      exact ⟨hfine, hsound⟩
    · intro h
      obtain ⟨hfine, hsound⟩ := h.slots n (by simp [slotNodes])
      exact ⟨hfine, h.placed, hsound⟩

/-- Nothing that a node contains is complained of exactly if its slots are accepted. -/
lemma Node.no_complaint_iff_fine (n : Node) (hn : n.Everywhere Grammatical) :
    n.occurrences.findSome? complaint? = none ↔ n.Fine := by
  induction n using slot_induction with
  | step n ih =>
    have hfield (entry : String × Value) (hentry : entry ∈ n.fields) :
        (Value.occurrences (.node n) entry.2).findSome? complaint? = none ↔ entry.2.Fine :=
      Value.no_complaint_iff_fine (hn.field hentry) fun m hm =>
        ih m ⟨entry, hentry, hm⟩ (hn.field hentry m hm)
    rw [fine_iff, occurrences_eq, no_complaint_flatMap]
    exact forall₂_congr hfield

/-- The outcome of settling a node: what it is desugared to, or the first complaint about what its
slots hold. -/
def Node.Answers (traced : Bool) (n : Node) : Prop :=
  (n.settle traced).toExcept = answer (n.occurrences.findSome? complaint?) n.desugar

/-! ### Lists -/

/-- The branches of a chain are settled unless there is a complaint about what they hold. -/
lemma Expand.settleBranches_eq {rest : List Value} {run : Nat}
    (hnodes : ∀ item ∈ rest.take run, ∃ n : Node, item = .node n)
    (ih : ∀ n : Node, .node n ∈ rest → n.Answers traced) :
    (Value.settleBranches traced run rest).toExcept =
      answer (((rest.take run).flatMap Value.inside).findSome? complaint?)
        ((rest.take run).map Value.desugarItem) := by
  induction rest generalizing run with
  | nil => simp [Value.settleBranches]
  | cons item rest ihrest =>
    cases run with
    | zero => simp [Value.settleBranches]
    | succ run =>
      obtain ⟨n, rfl⟩ := hnodes item (by simp)
      have hrest := @ihrest run (fun item hitem => hnodes item (by simp [hitem]))
        fun m hm => ih m (by simp [hm])
      rw [Value.settleBranches, Settled.toExcept_andThen, List.take_succ_cons, List.flatMap_cons,
        List.findSome?_append]
      refine answer_bind (ih n (by simp)) fun _ => ?_
      rw [Settled.toExcept_map, hrest, map_answer]
      rfl

/-- A node in a list is settled with the branches that it takes, and then the rest is. -/
lemma Expand.settleItems_eq_node {n : Node} {rest rest' : List Value} {c? : Option Complaint}
    (hholder : CanHold holder) (hn : n.Everywhere Node.Grammatical)
    (hrest : ∀ m : Node, .node m ∈ rest → m.Everywhere Node.Grammatical)
    (hsettle : n.Answers traced) (ih : ∀ m : Node, .node m ∈ rest → m.Answers traced)
    (htail : (Value.settleItems traced holder (Desugar.taken (.node n) rest) rest).toExcept =
      answer c? rest') :
    (Value.settleItems traced holder 0 (.node n :: rest)).toExcept =
      answer ((n.occurrences.findSome? complaint?).or
          ((((rest.take (Desugar.taken (.node n) rest)).flatMap Value.inside).findSome?
              complaint?).or
            (((judged holder (.node n) (rest.take (Desugar.taken (.node n) rest))).findSome?
              complaint?).or c?)))
        (Desugar.single holder.isJsx (.node n.desugar)
          ((rest.take (Desugar.taken (.node n) rest)).map Value.desugarItem) :: rest') := by
  have hrun : (if (Value.node n.desugar).construct? = some .whenTrue then runLength rest
      else .ok 0) = .ok (Desugar.taken (.node n) rest) := by
    rw [Node.construct?_desugar hn.orderly, Desugar.taken, runLength_eq hrest]
    split_ifs <;> rfl
  have hnodes : ∀ item ∈ rest.take (Desugar.taken (.node n) rest), ∃ m : Node, item = .node m :=
    fun item hitem => (Desugar.continues_of_mem_taken item hitem).eq_node
  simp only [Value.settleItems, Settled.toExcept_andThen, Settled.toExcept_orStop,
    Settled.toExcept_map]
  refine answer_bind hsettle fun hinside => ?_
  have hfine : n.Fine := (n.no_complaint_iff_fine hn).mp hinside
  have hgrammatical := n.grammatical_desugar hn hfine.sound
  rw [Construct.ofValue?_eq_ok hgrammatical, ok_bind, hrun, ok_bind]
  refine answer_bind (settleBranches_eq hnodes ih) fun hbranches => ?_
  have htaken := (no_complaint_inside fun m hm =>
    m.no_complaint_iff_fine (hrest m (List.mem_of_mem_take hm))).mp hbranches
  have hleave := leave_eq hgrammatical hholder (branches_of_taken hrest htaken)
    (map_taken_eq_nil hn) traced
  rw [← findSome?_judged hn (grammatical_of_taken hrest)] at hleave
  refine answer_bind hleave fun _ => ?_
  rw [htail, map_answer, Desugar.getD_replacement?]

/-- A list is settled unless there is a complaint about what is in it. -/
lemma Expand.settleItems_eq {items : List Value} (hholder : CanHold holder)
    (hitems : ∀ n : Node, .node n ∈ items → n.Everywhere Node.Grammatical)
    (ih : ∀ n : Node, .node n ∈ items → n.Answers traced) :
    (Value.settleItems traced holder 0 items).toExcept =
      answer ((inList holder items).findSome? complaint?)
        (Desugar.items holder.isJsx (items.map Value.desugarItem)) := by
  induction items using Desugar.taken_induction with
  | nil =>
    rw [List.map_nil, Desugar.items]
    simp [Value.settleItems]
  | cons item rest ihrest =>
    have hdrop {k : ℕ} {n : Node} (hn : .node n ∈ rest.drop k) : .node n ∈ item :: rest :=
      List.mem_cons_of_mem _ (List.mem_of_mem_drop hn)
    have htail := ihrest (fun n hn => hitems n (hdrop hn)) fun n hn => ih n (hdrop hn)
    cases item with
    | node n =>
      have hn := hitems n (by simp)
      have hrest (m : Node) (hm : .node m ∈ rest) : m.Everywhere Node.Grammatical :=
        hitems m (by simp [hm])
      rw [← settleItems_drop] at htail
      rw [List.map_cons, Value.desugarItem, Desugar.items, taken_desugarItem hn hrest,
        ← List.map_take, ← List.map_drop, inList_cons, List.findSome?_append, List.findSome?_append,
        List.findSome?_append, Option.or_assoc, Option.or_assoc]
      exact settleItems_eq_node hholder hn hrest (ih n (by simp)) (fun m hm => ih m (by simp [hm]))
        htail
    | scalar | list | record =>
      rw [Desugar.taken_of_not_node rfl, List.drop_zero] at htail
      rw [List.map_cons, Desugar.items_of_not_node _ _ rfl, inList_of_not_node rfl]
      simp only [Value.settleItems, Settled.toExcept_map, htail, map_answer]

/-! ### Trees -/

/-- The content of a field is settled unless there is a complaint about what is in it. -/
lemma Value.settle_eq {v : Value} (hholder : CanHold holder) (hv : v.Everywhere Node.Grammatical)
    (ih : ∀ m ∈ v.slotNodes, m.Answers traced) :
    (Value.settle traced holder v).toExcept =
      answer ((occurrences holder v).findSome? Occurrence.complaint?) (v.desugar holder.isJsx) := by
  cases v with
  | scalar | record => simp [Value.settle, Value.occurrences, Value.desugar]
  | list items =>
    have hnodes (n : Node) (hn : .node n ∈ items) : n.Answers traced := ih n (by simpa using hn)
    rw [Value.settle, Settled.toExcept_map, settleItems_eq hholder (everywhere_list.mp hv) hnodes,
      map_answer, occurrences_list, Value.desugar, desugarItems_eq_map]
  | node n =>
    have hn : n.Everywhere Node.Grammatical := by simpa using hv
    have hsettle := ih n (by simp [slotNodes])
    rw [Value.settle, Settled.toExcept_andThen, Value.occurrences, List.findSome?_append]
    refine answer_bind hsettle fun hinside => ?_
    have hfine : n.Fine := (n.no_complaint_iff_fine hn).mp hinside
    have hgrammatical := n.grammatical_desugar hn hfine.sound
    have hleave := leave_eq hgrammatical hholder (by simp [Branches]) (fun _ => rfl) traced
    rw [leaveAlone, Settled.toExcept_map, Settled.toExcept_orStop,
      Construct.ofValue?_eq_ok hgrammatical, ok_bind, hleave, map_answer,
      Desugar.getD_replacement?, findSome?_judged hn (by simp)]
    rfl

lemma Node.settleFields_eq {fields : List (String × Value)} (hholder : CanHold holder)
    (hfields : ∀ entry ∈ fields, entry.2.Everywhere Node.Grammatical)
    (ih : ∀ entry ∈ fields, ∀ m ∈ entry.2.slotNodes, m.Answers traced) :
    (Node.settleFields traced holder fields).toExcept =
      answer ((occurrencesInFields holder fields).findSome? complaint?)
        (Node.desugarFields holder.isJsx fields) := by
  induction fields with
  | nil => simp [Node.settleFields, occurrencesInFields, Node.desugarFields]
  | cons entry rest ihrest =>
    obtain ⟨name, v⟩ := entry
    rw [List.forall_mem_cons] at hfields ih
    rw [Node.settleFields, Settled.toExcept_andThen, occurrencesInFields, List.findSome?_append]
    refine answer_bind (Value.settle_eq hholder hfields.1 ih.1) fun _ => ?_
    rw [Settled.toExcept_map, ihrest hfields.2 ih.2, map_answer, Node.desugarFields]

/-- The slots of a grammatical node are settled unless there is a complaint about what they hold. -/
lemma Node.answers (n : Node) (traced : Bool) (hn : n.Everywhere Grammatical) :
    n.Answers traced := by
  induction n using slot_induction with
  | step n ih =>
    have hholder : CanHold (.node n) := .inr ⟨n, rfl, hn.here⟩
    have hslots (entry : String × Value) (hentry : entry ∈ n.fields) (m : Node)
        (hm : m ∈ entry.2.slotNodes) : m.Answers traced :=
      ih m ⟨entry, hentry, hm⟩ (hn.field hentry m hm)
    rw [Answers, toExcept_settle, settleFields_eq hholder (fun _ h => hn.field h) hslots,
      map_answer, desugar_eq, ← desugarFields_eq_map, occurrences_eq,
      ← occurrencesInFields_eq_flatMap]

/-- A pass accepts the slots of a grammatical node exactly if they are fine. -/
lemma Node.settle_judged (n : Node) (traced : Bool) (hn : n.Everywhere Node.Grammatical) :
    Judged n.Fine (n.settle traced).toExcept n.desugar :=
  .of_answer (n.answers traced hn) (n.no_complaint_iff_fine hn)

end JsxControl
