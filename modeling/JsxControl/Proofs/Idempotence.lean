import JsxControl.Proofs.Desugar.Agreement
import JsxControl.Proofs.NormalForm

/-!
# A second pass

A pass over a tree in whose slots everything is inert changes nothing, traces nothing and meets no
fault. What a pass has left is such a tree, so that a second pass leaves it as it is. Nothing is
asked of the tree: where it is malformed, a second pass looks at nothing that the first has not
looked at.
-/

namespace JsxControl

open Expand

variable {traced : Bool} {holder : Value}

/-! ### Inert nodes -/

namespace Expand

/-- Nothing takes the place of an inert node. -/
lemma leave_of_inert {n : Node} (h : n.Inert) (later : List Value) :
    leave traced holder n none later = .done none := by
  by_cases hkind : n.kind = .expressionStatement
  · obtain ⟨e, he, hguard⟩ := h.2 hkind
    simp [leave, hkind, he, hguard]
  · simp [leave, hkind]

lemma leaveAlone_of_inert {n : Node} (h : n.Inert) :
    leaveAlone traced holder n = .done none := by
  rw [leaveAlone, h.1, Settled.orStop_ok, leave_of_inert h]

end Expand

lemma Value.settleBranches_zero (rest : List Value) :
    Value.settleBranches traced 0 rest = .done [] := by
  cases rest <;> rw [Value.settleBranches]

/-! ### Trees -/

/-- An inert node opens no chain, so that the items of a list are settled one by one. -/
lemma Value.settleItems_of_inert {items : List Value}
    (h : ∀ n : Node, .node n ∈ items → n.Inert ∧ n.settle traced = .done n) :
    Value.settleItems traced holder 0 items = .done items := by
  induction items with
  | nil => rw [Value.settleItems]
  | cons item rest ih =>
    have hrest := ih fun n hn => h n (List.mem_cons_of_mem _ hn)
    cases item with
    | node n =>
      obtain ⟨hn, hsettle⟩ := h n List.mem_cons_self
      simp [Value.settleItems, hsettle, hn.1, Value.settleBranches_zero, leave_of_inert hn, hrest]
    | scalar | list | record => simp [Value.settleItems, hrest]

lemma Value.settle_of_inert {v : Value} (hv : v.Everywhere Node.Inert)
    (ih : ∀ m ∈ v.slotNodes, m.settle traced = .done m) :
    Value.settle traced holder v = .done v := by
  cases v with
  | scalar | record => rw [Value.settle]
  | node n =>
    have hn : n.Everywhere Node.Inert := by simpa using hv
    rw [Value.settle, ih n (by simp [slotNodes]), Settled.andThen_done, leaveAlone_of_inert hn.here,
      Settled.map_done, Option.getD_none]
  | list items =>
    rw [Value.settle, Value.settleItems_of_inert, Settled.map_done]
    intro n hn
    exact ⟨(everywhere_list.mp hv n hn).here, ih n (by simpa using hn)⟩

lemma Node.settleFields_of_settled {fields : List (String × Value)}
    (h : ∀ entry ∈ fields, Value.settle traced holder entry.2 = .done entry.2) :
    Node.settleFields traced holder fields = .done fields := by
  induction fields with
  | nil => rw [Node.settleFields]
  | cons entry rest ih =>
    obtain ⟨name, v⟩ := entry
    have hv := h (name, v) List.mem_cons_self
    rw [Node.settleFields, hv, Settled.andThen_done,
      ih fun entry hentry => h entry (List.mem_cons_of_mem _ hentry), Settled.map_done]

/-- A pass over a node that contains only inert nodes changes nothing and traces nothing. -/
lemma Node.settle_of_inert (n : Node) (h : n.Everywhere Inert) : n.settle traced = .done n := by
  induction n using slot_induction with
  | step n ih =>
    have hfields : Node.settleFields traced (.node n) n.fields = .done n.fields := by
      apply Node.settleFields_of_settled
      intro entry hentry
      apply Value.settle_of_inert (h.field hentry)
      exact fun m hm => ih m ⟨entry, hentry, hm⟩ (h.field hentry m hm)
    obtain ⟨kind, fields, origin⟩ := n
    rw [Node.settle, hfields, Settled.map_done]

/-! ### Roots -/

namespace Expand

/-- Tracing a tree changes nothing, and fails only where its source text is asked for and cannot be
written. -/
lemma report_eq_ok_iff {asked : Topic → Bool} {word filename ending : String} {tree tree' : Value} :
    (report asked word filename ending tree).toExcept = .ok tree' ↔
      tree' = tree ∧ (asked .sources = true → ∃ s, tree.source = .ok s) := by
  rw [report]
  cases asked .sources with
  | false => simp [@eq_comm _ tree]
  | true => simp [@eq_comm _ tree, and_comm]

/-- What has been expanded can be written as source text, if this was asked for. -/
lemma source_of_tree_eq_ok {asked : Topic → Bool} {filename : String} {tree tree' : Value}
    (h : (Expand.tree asked filename tree).toExcept = .ok tree') (hasked : asked .sources = true) :
    ∃ s, tree'.source = .ok s := by
  simp only [Expand.tree, Settled.toExcept_andThen, bind_eq_ok_iff] at h
  obtain ⟨old, -, new, -, hnew⟩ := h
  obtain ⟨rfl, hsource⟩ := report_eq_ok_iff.mp hnew
  exact hsource hasked

/-- A tree in which everything is inert is left as it is. -/
lemma tree_of_inert {asked : Topic → Bool} {filename : String} {root : Node}
    (h : root.Everywhere Node.Inert)
    (hsource : asked .sources = true → ∃ s, (Value.node root).source = .ok s) :
    (Expand.tree asked filename (.node root)).toExcept = .ok (.node root) := by
  have hreport (word ending : String) :
      (report asked word filename ending (.node root)).toExcept = .ok (.node root) :=
    report_eq_ok_iff.mpr ⟨rfl, hsource⟩
  have hroot : settleRoot (asked .steps) filename (.node root) = .done (.node root) := by
    rw [settleRoot, root.settle_of_inert h, Settled.andThen_done, leaveAlone_of_inert h.here,
      Settled.andThen_done]
  rw [Expand.tree, Settled.toExcept_andThen, hreport, ok_bind, hroot, Settled.andThen_done, hreport]

/-- A second pass over what a pass has left comes to its end and changes nothing. It may trace what
the first did not, except that the source text of a malformed tree may not exist: that is asked for
only if the first pass has written it as well. -/
theorem tree_idempotent {asked asked' : Topic → Bool} {filename filename' : String} {json : Json}
    {tree tree' : Value} (hread : Value.ofJson json = .ok tree)
    (h : (Expand.tree asked filename tree).toExcept = .ok tree')
    (hasked : asked' .sources = true → asked .sources = true) :
    (Expand.tree asked' filename' tree').toExcept = .ok tree' := by
  have hsource := source_of_tree_eq_ok h
  obtain ⟨root, root', rfl, hroot, rfl, hgives⟩ := Expand.tree_eq_ok h
  have horderly : root.Everywhere Node.Orderly := by simpa using Value.ofJson_orderly hread
  have hleft : root'.Everywhere Node.Left := by
    simpa using hgives.left (root.settle_left horderly hroot) (by simp)
  apply tree_of_inert (hleft.imp fun _ hm => hm.2)
  intro hsources
  exact hsource (hasked hsources)

theorem chain_idempotent :
    ∃ tree, Value.ofJson chainDocument = .ok tree ∧
      (Expand.tree (fun _ => false) "a.jsx" tree).toExcept = .ok chainExpanded ∧
      (Expand.tree (· = .steps) "b.jsx" chainExpanded).toExcept = .ok chainExpanded := by
  obtain ⟨tree, hread, htree⟩ : ∃ tree, Value.ofJson chainDocument = .ok tree ∧
      (Expand.tree (fun _ => false) "a.jsx" tree).toExcept = .ok chainExpanded :=
    ⟨_, rfl, rfl⟩
  exact ⟨tree, hread, htree, tree_idempotent hread htree (by simp)⟩

end Expand

end JsxControl
