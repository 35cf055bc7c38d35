import JsxControl.Proofs.Desugar.Guard

/-!
# What desugaring leaves as it is

A tree without constructs, and without statements that check for one, is its own desugared tree.
Elsewhere a node that is neither keeps its slot, with its own slots desugared.
-/

namespace JsxControl

/-- Nothing takes the place of a node: it is no construct, and no statement that checks for one. -/
def Node.Stays (n : Node) : Prop :=
  (Value.node n).construct? = none ∧ (Value.node n).isGuardStatement = false

lemma Node.stays_of_kind {n : Node} (helement : n.kind ≠ .jsxElement)
    (hstatement : n.kind ≠ .expressionStatement) : n.Stays :=
  ⟨Value.construct?_of_kind helement, by simp [Value.isGuardStatement, hstatement]⟩

namespace Desugar

lemma single_of_stays {n : Node} (h : n.Stays) (b : Bool) (later : List Value) :
    single b (.node n) later = .node n := by
  simp [single, expansion?, h.1, h.2]

/-- A list of nodes that stay, with anything that is no node between them, stays. -/
lemma items_of_stays {list : List Value} (h : ∀ n : Node, .node n ∈ list → n.Stays) (b : Bool) :
    items b list = list := by
  induction list with
  | nil => rw [items]
  | cons item rest ih =>
    have hrest := ih fun n hn => h n (List.mem_cons_of_mem _ hn)
    cases item with
    | node n =>
      have hn : n.Stays := h n List.mem_cons_self
      have htaken : taken (.node n) rest = 0 := by simp [taken, hn.1]
      rw [items, htaken, List.drop_zero, single_of_stays hn, hrest]
    | scalar | list | record =>
      rw [items]
      simp [single, expansion?, taken, Value.isGuardStatement, Value.isA, hrest]

end Desugar

/-- Desugaring leaves a content in whose slots everything stays. -/
lemma Value.desugar_of_stays {v : Value} (h : v.Everywhere Node.Stays)
    (ih : ∀ m ∈ v.slotNodes, m.desugar = m) (b : Bool) : v.desugar b = v := by
  cases v with
  | scalar | record => rw [Value.desugar]
  | node n =>
    have hn : n.Everywhere Node.Stays := by simpa using h
    rw [Value.desugar, ih n (by simp [slotNodes]), Desugar.single_of_stays hn.here]
  | list items =>
    have hitems : items.map desugarItem = items := by
      refine (List.map_congr_left fun item hitem => ?_).trans (List.map_id items)
      cases item with
      | node n => rw [desugarItem, ih n (by simpa using hitem), id]
      | scalar | list | record => rfl
    rw [Value.desugar, desugarItems_eq_map, hitems, Desugar.items_of_stays]
    exact fun n hn => (everywhere_list.mp h n hn).here

/-- Desugaring leaves a tree in which everything stays. -/
lemma Node.desugar_of_stays (n : Node) (h : n.Everywhere Stays) : n.desugar = n := by
  induction n using slot_induction with
  | step n ih =>
    have hfields : n.fields.map (fun entry => (entry.1, entry.2.desugar (Value.node n).isJsx)) =
        n.fields := by
      refine (List.map_congr_left fun entry hentry => ?_).trans (List.map_id n.fields)
      have hslots := h.field hentry
      rw [Value.desugar_of_stays hslots fun m hm => ih m ⟨entry, hentry, hm⟩ (hslots m hm), id]
    rw [desugar_eq, hfields]
    cases n
    rfl

/-- Desugaring leaves a content in whose slots everything stays. -/
lemma Value.Everywhere.desugar_eq {v : Value} (h : v.Everywhere Node.Stays) (b : Bool) :
    v.desugar b = v :=
  Value.desugar_of_stays h (fun m hm => m.desugar_of_stays (h m hm)) b

/-! ### Nodes that keep their slots -/

lemma Node.stays_desugar_iff {n : Node} (hn : n.Everywhere Orderly) :
    n.desugar.Stays ↔ n.Stays := by
  unfold Stays
  rw [construct?_desugar hn, isGuardStatement_desugar hn]

/-- The items of a run continue a chain, so a node that stays is in none. -/
lemma Desugar.mem_items_of_stays {n : Node} (hn : n.Stays) (b : Bool) {list : List Value}
    (h : .node n ∈ list) : .node n ∈ items b list := by
  match list with
  | [] => simp at h
  | item :: rest =>
    rw [items]
    rcases List.mem_cons.mp h with rfl | hrest
    · rw [single_of_stays hn]
      exact List.mem_cons_self
    · refine List.mem_cons_of_mem _ (mem_items_of_stays hn b ?_)
      have hsplit := hrest
      rw [← List.take_append_drop (taken item rest) rest, List.mem_append] at hsplit
      apply hsplit.resolve_left
      intro htaken
      rcases continues_of_mem_taken _ htaken with h | h <;> simp [hn.1] at h
termination_by list.length
decreasing_by
  rw [List.length_drop, List.length_cons]
  omega

/-- A node that stays stands desugared in a slot of what holds it. -/
lemma Node.Holds.desugar {n m : Node} (h : n.Holds m) (hm : m.Everywhere Orderly)
    (hstays : m.Stays) : n.desugar.Holds m.desugar := by
  obtain ⟨entry, hentry, hslot⟩ := h
  have hstays' : m.desugar.Stays := (stays_desugar_iff hm).mpr hstays
  refine ⟨(entry.1, entry.2.desugar (Value.node n).isJsx), ?_, ?_⟩
  · rw [fields_desugar]
    exact List.mem_map_of_mem hentry
  · cases hv : entry.2 with
    | scalar | record => simp [hv, Value.slotNodes] at hslot
    | node l =>
      obtain rfl : m = l := by simpa [hv, Value.slotNodes] using hslot
      rw [Value.desugar, Desugar.single_of_stays hstays']
      simp [Value.slotNodes]
    | list items =>
      rw [hv, Value.mem_slotNodes_list] at hslot
      rw [Value.desugar, Value.desugarItems_eq_map, Value.mem_slotNodes_list]
      exact Desugar.mem_items_of_stays hstays' _ (List.mem_map_of_mem hslot)

/-- What is reached from a node through nodes that stay is reached, desugared, from the desugared
node. -/
lemma Node.reach_desugar {root n : Node} (hroot : root.Everywhere Orderly)
    (h : Relation.ReflTransGen (fun n m => Holds n m ∧ m.Stays) root n) :
    Relation.ReflTransGen Holds root.desugar n.desugar := by
  have hreach {n : Node} (h : Relation.ReflTransGen (fun n m => Holds n m ∧ m.Stays) root n) :
      n.Everywhere Orderly := fun l hl =>
    hroot l ((h.lift id fun _ _ h => h.1).trans hl)
  induction h with
  | refl => exact .refl
  | tail hfirst hlast ih =>
    exact ih.tail (hlast.1.desugar (hreach (hfirst.tail hlast)) hlast.2)

end JsxControl
