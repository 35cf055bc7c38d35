import JsxControl.Proofs.Acceptance.Desugared
import JsxControl.Proofs.Desugar.Parts

/-!
# A pass keeps the types

What a pass makes of a typed tree is typed, and no node of it is mistaken that was not so before. A
construct that breaks a rule stops the pass, so that nothing has to be known of the constructs: what
their attributes give, and what their bodies are, are nodes of the tree or new ones.
-/

namespace JsxControl

variable {J : Prop}

/-! ### What can be found -/

namespace Node

/-- What is found in a typed node has the type of some field of that name. -/
lemma Typed.meets_of_field {n : Node} (h : n.Typed) {name : String} {v : Value}
    (hv : n.field name = .ok v) : ∃ d, (name, d) ∈ n.kind.types ∧ d.Meets v := by
  obtain ⟨hknown, hget⟩ := (field_eq_ok_iff h.notes).mp hv
  obtain ⟨demand, hdemand, hname, hmeets⟩ :=
    exists_of_mem_right_of_forall₂ (h.fields hknown) (Entries.mem_of_get? hget)
  obtain rfl : name = demand.1 := hname
  exact ⟨demand.2, hdemand, hmeets⟩

variable {n : Node} (hn : n.Everywhere (Writable J))
include hn

/-- The expression that is in braces is a node. -/
lemma is_of_container (hkind : n.kind = .jsxExpressionContainer) {e : Value}
    (he : n.field "expression" = .ok e) : e.Is (Writable J) := by
  obtain ⟨m, hm, -, heverywhere⟩ :=
    Writable.demanding.field_eq_node hn "expression" none (by rw [hkind]; rfl)
  obtain rfl := Except.ok.inj (he.symm.trans hm)
  exact ⟨m, rfl, heverywhere⟩

/-- The children of a node, if it has any, are nodes. -/
lemma is_of_children {v : Value} (hv : n.field "children" = .ok v) {items : List Value}
    (hitems : v.items = .ok items) : ∀ item ∈ items, item.Is (Writable J) := by
  obtain ⟨d, hd, hmeets⟩ := hn.here.1.meets_of_field hv
  obtain rfl : d = .nodes none := by
    cases hkind : n.kind <;> simp_all [Kind.types, Kind.demands]
  obtain ⟨items', rfl, hnodes⟩ := hmeets
  obtain rfl : items' = items := by simpa [Value.items] using hitems
  intro item hitem
  obtain ⟨m, rfl, -⟩ := hnodes item hitem
  exact ⟨m, rfl, Value.everywhere_list.mp (hn.found hn.here.1.notes hv) m hitem⟩

/-! ### Expansions -/

/-- All that a typed node puts into an expansion is typed. -/
lemma partsHave_of_writable : (Value.node n).PartsHave (Value.Is (Writable J)) where
  given := by
    intro name e he
    obtain ⟨c, hkind, hexpression, -, hc⟩ :=
      he.exists_container (fun _ hwritable => hwritable.1.notes) ((Value.everywhere_node n).mpr hn)
    exact is_of_container hc hkind hexpression
  body result hresult := by
    obtain ⟨v, hv, hbody⟩ := bind_eq_ok_iff.mp hresult
    obtain ⟨items, hitems, ⟨-, rfl⟩ | ⟨child, rfl, hchild⟩⟩ := Expand.exists_of_body_eq_ok hbody
    · exact isGrammatical_fragment (is_of_children hn hv hitems)
    · have hchildren := is_of_children hn hv hitems child (by simp)
      obtain ⟨-, rfl | ⟨hcontainer, he⟩⟩ := Expand.exists_of_childExpression?_eq_some hchild
      · exact hchildren
      · obtain ⟨m, rfl, hm⟩ := hchildren
        exact is_of_container hm (by simpa using hcontainer) he

end Node

lemma Desugar.kept_is {G : Node → Prop} [Node.Grammar G] : Kept (Value.Is G) where
  nullLiteral := Node.isGrammatical_nullLiteral
  conditional := Node.isGrammatical_conditional
  arrow := Node.isGrammatical_arrow
  member hobject := Node.isGrammatical_member hobject "map"
  call := Node.isGrammatical_call

/-! ### The pass -/

/-- What takes the place of a typed node is typed. -/
lemma Expand.Gives.writable {holder v : Value} {n : Node} {later : List Value}
    (h : Gives holder n later v) (hn : n.Everywhere (Node.Writable J))
    (hlater : ∀ branch ∈ later, branch.Is (Node.Writable J)) : v.Is (Node.Writable J) := by
  cases h with
  | expanded hc h =>
    have hparts : ∀ branch ∈ later, branch.PartsHave (Value.Is (Node.Writable J)) := by
      intro branch hbranch
      obtain ⟨m, rfl, hm⟩ := hlater branch hbranch
      exact Node.partsHave_of_writable hm
    obtain ⟨e, he, rfl⟩ := Construct.exists_of_expand_eq_ok Desugar.kept_is
      (Node.partsHave_of_writable hn) hparts h
    exact Desugar.isGrammatical_wrap he _
  | disarmed => exact Node.isGrammatical_emptyStatement
  | kept => exact ⟨n, rfl, hn⟩

lemma Kind.not_mem_kinds?_types (kind : Kind) : ∀ demand ∈ kind.types,
    ∀ kinds ∈ demand.2.kinds?, .jsxElement ∉ kinds ∧ .expressionStatement ∉ kinds := by
  cases kind <;> simp [Kind.types, Kind.demands, Demand.kinds?]

/-- When the slots of a typed node are settled, it is typed. -/
lemma Node.settle_writable {traced : Bool} (n : Node) (hn : n.Everywhere (Writable J)) {n' : Node}
    (h : (n.settle traced).toExcept = .ok n') : n'.Everywhere (Writable J) := by
  induction n using slot_induction generalizing n' with
  | step n ih =>
    have hdesugar := n.settle_eq_desugar (hn.imp fun _ h => h.orderly) h
    refine everywhere_iff.mpr ⟨?_, fun entry' hentry' => ?_⟩
    · obtain ⟨htyped, hJ⟩ := hn.here
      subst hdesugar
      refine ⟨⟨?_, ?_, fun hknown => ?_⟩, ?_⟩
      · simpa using htyped.notes
      · simpa using htyped.tagged
      · have hmet := htyped.fields (by simpa using hknown)
        rw [kind_desugar, fields_desugar, List.forall₂_map_right_iff]
        refine List.Forall₂.imp ?_ ((List.forall₂_and_left _ _).mpr ⟨n.kind.not_mem_kinds?_types, hmet⟩)
        rintro demand entry ⟨hkinds, hname, hv⟩
        exact ⟨hname, hv.desugar hkinds _⟩
      · simpa [Mistaken] using hJ
    · rw [toExcept_settle] at h
      obtain ⟨fields', hfields, rfl⟩ := map_eq_ok_iff.mp h
      obtain ⟨entry, hentry, -, hv⟩ :=
        exists_of_mem_right_of_forall₂ (settleFields_eq_ok hfields) hentry'
      refine Value.settle_everywhere (S := Node.Everywhere (Writable J)) ?_ ?_ hv
      · exact fun hgives hm hlater => (hgives.writable hm hlater).everywhere
      · exact fun m hm m' hm' => ih m ⟨entry, hentry, hm⟩ (hn.field hentry m hm) hm'

end JsxControl
