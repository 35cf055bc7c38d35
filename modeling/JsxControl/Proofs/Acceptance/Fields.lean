import JsxControl.Proofs.Acceptance.Grammar
import JsxControl.Proofs.Desugar.Basic
import JsxControl.Proofs.Pass

/-!
# The fields of grammatical nodes

A grammatical node of a known kind has the fields of its kind, each under a name of its own, so that
every entry is what is found under its name. Elements and fragments have a list of nodes for
children, and no other kinds have children.
-/

namespace JsxControl

/-- A field of a grammatical node of a known kind is found under its name. -/
lemma Node.Grammatical.field_of_mem {n : Node} (h : n.Grammatical)
    (hknown : n.kind.isOther = false) {name : String} {v : Value} (hentry : (name, v) ∈ n.fields) :
    n.field name = .ok v := by
  have hnodup : (Entries.names n.fields).Nodup := by
    rw [h.orderly.2 hknown]
    exact n.kind.nodup_fieldNames
  rw [field_eq_ok_iff h.notes]
  exact ⟨hknown, Entries.get?_of_mem hnodup hentry⟩

/-- A field of a grammatical node of a known kind, as it is found and as the kind demands it. -/
lemma Node.Grammatical.entry {n : Node} (h : n.Grammatical) (hknown : n.kind.isOther = false)
    {name : String} {v : Value} (hentry : (name, v) ∈ n.fields) :
    (Value.node n).content name = v ∧ ∃ d, (name, d) ∈ n.kind.demands ∧ d.Meets v := by
  refine ⟨Value.content_of_node_field (h.field_of_mem hknown hentry), ?_⟩
  obtain ⟨⟨_, d⟩, hd, rfl, hv⟩ := exists_of_mem_right_of_forall₂ (h.fields hknown) hentry
  exact ⟨d, hd, hv⟩

/-- The fields of a grammatical node of a known kind, by what is found under their names. -/
lemma Node.Grammatical.fields_eq {n : Node} (h : n.Grammatical) (hknown : n.kind.isOther = false) :
    n.fields = n.kind.fieldNames.map fun name => (name, (Value.node n).content name) := by
  rw [← h.orderly.2 hknown, Entries.names, List.map_map]
  symm
  refine (List.map_congr_left fun entry hentry => ?_).trans (List.map_id n.fields)
  exact Prod.ext rfl (h.entry hknown hentry).1

lemma Node.Grammatical.fields_of_container {n : Node} (h : n.Grammatical)
    (hkind : n.kind = .jsxExpressionContainer) :
    n.fields = [("expression", (Value.node n).content "expression")] := by
  rw [h.fields_eq (by rw [hkind]; rfl), hkind]
  rfl

/-! ### Children -/

/-- A field for children holds a list. -/
lemma Node.Grammatical.list_of_children {n : Node} (hn : n.Grammatical)
    (hknown : n.kind.isOther = false) {v : Value} (hentry : ("children", v) ∈ n.fields) :
    v = .list (Desugar.children (.node n)) ∧
      ∀ item ∈ Desugar.children (.node n), item.IsNode none := by
  have hdemand : ∀ d, ("children", d) ∈ n.kind.demands → d = .nodes none := by
    cases n.kind <;> simp [Kind.demands]
  obtain ⟨hcontent, d, hd, hv⟩ := hn.entry hknown hentry
  obtain rfl := hdemand d hd
  obtain ⟨items, rfl, hitems⟩ := hv
  rw [Desugar.children, hcontent]
  exact ⟨rfl, hitems⟩

/-- The children of a grammatical node are a list of nodes, if it has any. -/
lemma Node.children_of_grammatical {n : Node} (hn : n.Everywhere Grammatical) :
    ((∃ items, (Value.node n).content "children" = .list items) ∨
      (Value.node n).content "children" = .null) ∧
    ∀ item ∈ Desugar.children (.node n), ∃ m : Node, item = .node m ∧
      m.Everywhere Grammatical := by
  cases hfield : n.field "children" with
  | ok v =>
    obtain ⟨hknown, hget⟩ := (field_eq_ok_iff hn.here.notes).mp hfield
    have hentry := Entries.mem_of_get? hget
    obtain ⟨rfl, hitems⟩ := hn.here.list_of_children hknown hentry
    refine ⟨.inl ⟨_, Value.content_of_node_field hfield⟩, ?_⟩
    intro item hitem
    obtain ⟨m, rfl, -⟩ := hitems item hitem
    exact ⟨m, rfl, Value.everywhere_list.mp (hn.field hentry) m hitem⟩
  | error =>
    have hnull : (Value.node n).content "children" = .null := by
      simp [Value.content, hfield, Except.toOption]
    refine ⟨.inr hnull, ?_⟩
    intro item hitem
    rw [Desugar.children, hnull] at hitem
    simp [Value.parts, Value.items, Except.toOption] at hitem

/-- A fragment or an element holds a list of children. -/
lemma Node.Grammatical.content_children {n : Node} (hn : n.Grammatical)
    (hkind : n.kind = .jsxFragment ∨ n.kind = .jsxElement) :
    (Value.node n).content "children" = .list (Desugar.children (.node n)) := by
  have hknown : n.kind.isOther = false := by
    rcases hkind with h | h <;> simp [h, Kind.isOther]
  refine (hn.list_of_children hknown ?_).1
  rw [hn.fields_eq hknown]
  apply List.mem_map_of_mem
  rcases hkind with h | h <;> rw [h] <;> decide

/-- The fields of a fragment or an element, with the children in the middle. -/
lemma Node.Grammatical.fields_of_parent {n : Node} (hn : n.Grammatical)
    (hkind : n.kind = .jsxFragment ∨ n.kind = .jsxElement) :
    ∃ first last, n.fields = [(first, (Value.node n).content first),
      ("children", .list (Desugar.children (.node n))), (last, (Value.node n).content last)] ∧
      (n.kind = .jsxElement → first = "opening_element" ∧ last = "closing_element") := by
  have hfields := hn.fields_eq (by rcases hkind with h | h <;> simp [h, Kind.isOther])
  rw [← hn.content_children hkind]
  rcases hkind with h | h
  · refine ⟨"opening_fragment", "closing_fragment", ?_, by simp [h]⟩
    rw [hfields, h]
    rfl
  · refine ⟨"opening_element", "closing_element", ?_, by simp⟩
    rw [hfields, h]
    rfl

lemma Node.children_eq_nil {n : Node} (hn : n.Grammatical) (h : "children" ∉ n.kind.fieldNames) :
    Desugar.children (.node n) = [] := by
  cases hfield : n.field "children" with
  | ok v => exact absurd (hn.orderly.field_eq_ok hfield).2 h
  | error =>
    simp [Desugar.children, Value.content, hfield, Value.parts, Value.items, Except.toOption]

end JsxControl
