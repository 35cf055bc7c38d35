import JsxControl.Proofs.Desugar.Expansion
import JsxControl.Proofs.Orderly
import JsxControl.Proofs.Pass
import JsxControl.Proofs.Slots

/-!
# What expansions are made of

An expansion puts together expressions that attributes give and bodies of elements, by means of a
few new nodes. What these nodes keep of their parts therefore holds of every expansion as soon as it
holds of the expressions and the bodies. This is shown once, for any property that is kept.
-/

namespace JsxControl

/-! ### What can be found -/

lemma Value.Everywhere.parts {P : Node → Prop} {v : Value} (h : v.Everywhere P) {item : Value}
    (hitem : item ∈ v.parts) : item.node? = none ∨ item.Everywhere P := by
  cases item with
  | node n =>
    right
    cases v with
    | list items => simpa using everywhere_list.mp h n hitem
    | scalar s => cases s <;> simp [Value.parts, Value.items, Except.toOption] at hitem
    | record | node => simp [Value.parts, Value.items, Except.toOption] at hitem
  | scalar | list | record => exact .inl rfl

lemma Value.Everywhere.content {P : Node → Prop} (hP : ∀ n, P n → n.origin.notes = []) {v : Value}
    (h : v.Everywhere P) (name : String) : (v.content name).Everywhere P := by
  cases hfield : v.field name with
  | error => simp [Value.content, hfield, Except.toOption]
  | ok u =>
    rw [content_of_field hfield]
    cases v with
    | node n =>
      rw [everywhere_node] at h
      exact h.found (hP n h.here) hfield
    | scalar | list | record => simp [field] at hfield

/-! ### Expressions that attributes give -/

/-- The expression that an attribute gives stands in braces, which have what the element has
everywhere. -/
lemma Desugar.Gives.exists_container {P : Node → Prop} (hP : ∀ n, P n → n.origin.notes = [])
    {element e : Value} {name : String} (h : element.Everywhere P) (he : Gives element name e) :
    ∃ c : Node, c.kind = .jsxExpressionContainer ∧ c.field "expression" = .ok e ∧
      e.isA .jsxEmptyExpression = false ∧ c.Everywhere P := by
  obtain ⟨attr, hattr, he⟩ := he
  have hmem : attr ∈ attributes element := List.mem_reverse.mp (List.mem_of_find?_eq_some hattr)
  obtain ⟨v, hv, hcontainer, hexpression, hempty⟩ := Attributes.expression?_eq_ok he
  obtain ⟨c, rfl, hkind⟩ := Value.isA_iff.mp hcontainer
  refine ⟨c, hkind, hexpression, hempty, ?_⟩
  rcases ((h.content hP "opening_element").content hP "attributes").parts hmem with hnone | hattr
  · cases attr <;> simp [Value.node?, Value.field] at hnone hv
  · rw [← Value.everywhere_node, ← Value.content_of_field hv]
    exact hattr.content hP "value"

namespace Expand

/-! ### Bodies -/

/-- A child that can be an expression has one in braces, or is one, that is no markup. -/
lemma exists_of_childExpression?_eq_some {child e : Value}
    (h : childExpression? child = .ok (some e)) :
    e.isMarkup = .ok false ∧ (e = child ∨
      (child.isA .jsxExpressionContainer ∧ child.field "expression" = .ok e)) := by
  rcases exists_of_childExpression?_eq_ok h with ⟨e', hc, he, hb, hsome⟩ | ⟨-, b, hb, hsome⟩
  · obtain rfl := Option.some.inj hsome
    exact ⟨hb, .inr ⟨hc, he⟩⟩
  · cases b with
    | true => simp at hsome
    | false =>
      obtain rfl : e = child := by simpa using hsome
      exact ⟨hb, .inl rfl⟩

end Expand

/-! ### What new nodes keep -/

/-- A property of expressions that the new nodes of an expansion have if their parts have it. -/
structure Desugar.Kept (Q : Value → Prop) : Prop where
  nullLiteral : Q (.node .nullLiteral)
  conditional {test consequent alternate : Value} : Q test → Q consequent → Q alternate →
    Q (.node (.conditional test consequent alternate))
  arrow {param body : Value} : Q param → Q body → Q (.node (.arrow param body))
  member {object : Value} : Q object → Q (.node (.member object "map"))
  call {function argument : Value} : Q function → Q argument → Q (.node (.call function argument))

/-- All that an element puts into its expansion has a property. -/
structure Value.PartsHave (Q : Value → Prop) (element : Value) : Prop where
  given : ∀ name e, Desugar.Gives element name e → Q e
  body : ∀ result, Expand.bodyOf element = .ok result → Q result

variable {Q : Value → Prop}

lemma Expand.branches_kept (hQ : Desugar.Kept Q) {holder result : Value} {elements : List Value}
    (helements : ∀ element ∈ elements, element.PartsHave Q)
    (h : branches holder elements = .ok result) : Q result := by
  induction elements generalizing result with
  | nil =>
    obtain rfl : Value.node .nullLiteral = result := by simpa [branches] using h
    exact hQ.nullLiteral
  | cons element later ih =>
    obtain ⟨alternate, halternate, h⟩ := bind_eq_ok_iff.mp (by simpa only [branches] using h)
    have hparts := helements element List.mem_cons_self
    have hlater : Q alternate := ih (fun e he => helements e (List.mem_cons_of_mem _ he)) halternate
    obtain ⟨body, hbody, ⟨-, rfl⟩ | ⟨-, test, htest, rfl⟩⟩ := exists_of_branch_eq_ok h
    · exact hparts.body _ hbody
    · exact hQ.conditional (hparts.given _ _ htest) (hparts.body _ hbody) hlater

/-- A construct expands to an expression that has what all parts of the element, and of the branches
that continue it, have. -/
lemma Construct.exists_of_expand_eq_ok (hQ : Desugar.Kept Q) {c : Construct}
    {holder element v : Value} {later : List Value} (helement : element.PartsHave Q)
    (hlater : ∀ branch ∈ later, branch.PartsHave Q) (h : c.expand holder element later = .ok v) :
    ∃ e, Q e ∧ v = Desugar.wrap holder.isJsx e := by
  cases c with
  | loop =>
    obtain ⟨param, e, result, hparam, he, hresult, rfl⟩ :=
      Expand.exists_of_binder_eq_ok (by simpa only [expand, Expand.loop] using h)
    refine ⟨_, ?_, rfl⟩
    apply hQ.call (hQ.member (helement.given _ _ he))
    exact hQ.arrow (helement.given _ _ hparam) (helement.body _ hresult)
  | binding =>
    obtain ⟨param, e, result, hparam, he, hresult, rfl⟩ :=
      Expand.exists_of_binder_eq_ok (by simpa only [expand, Expand.binding] using h)
    refine ⟨_, ?_, rfl⟩
    refine hQ.call ?_ (helement.given _ _ he)
    exact hQ.arrow (helement.given _ _ hparam) (helement.body _ hresult)
  | whenTrue =>
    obtain ⟨e, he, h⟩ := bind_eq_ok_iff.mp (by simpa only [expand, Expand.chain] using h)
    refine ⟨e, ?_, Expand.wrap_eq_ok h⟩
    apply Expand.branches_kept hQ _ he
    rw [List.forall_mem_cons]
    exact ⟨helement, hlater⟩
  | otherwiseWhen | otherwise =>
    obtain ⟨opening, -, text, -, h⟩ : ∃ opening, element.field "opening_element" = .ok opening ∧
        ∃ text, opening.source = .ok text ∧ Except.error _ = Except.ok v := by
      simpa only [expand, Expand.orphan, bind_eq_ok_iff] using h
    simp at h

/-! ### What takes the place of a node -/

namespace Expand

/-- What takes the place of a node is a node: the same one, an expression in braces, perhaps with a
fragment around it, or an empty statement. -/
lemma Gives.exists_node {holder v : Value} {n : Node} {later : List Value}
    (h : Gives holder n later v) : ∃ r : Node, v = .node r ∧ (r = n ∨
      ((Value.node n).construct?.isSome ∧
        r.kind = if holder.isJsx then .jsxExpressionContainer else .jsxFragment) ∨
      (n.kind = .expressionStatement ∧ r.kind = .emptyStatement)) := by
  cases h with
  | @expanded c _ hc h =>
    have hkept : Desugar.Kept fun _ => True :=
      ⟨trivial, fun _ _ _ => trivial, fun _ _ => trivial, fun _ => trivial, fun _ _ => trivial⟩
    have hparts (element : Value) : element.PartsHave fun _ => True :=
      ⟨fun _ _ _ => trivial, fun _ _ => trivial⟩
    obtain ⟨e, -, rfl⟩ := Construct.exists_of_expand_eq_ok hkept (hparts _) (fun b _ => hparts b) h
    have hconstruct : (Value.node n).construct?.isSome := by
      rw [Value.construct?_of_ofValue? hc, Option.isSome_some]
    cases hjsx : holder.isJsx with
    | true => exact ⟨_, rfl, .inr (.inl ⟨hconstruct, rfl⟩)⟩
    | false => exact ⟨_, rfl, .inr (.inl ⟨hconstruct, rfl⟩)⟩
  | disarmed hc hkind => exact ⟨_, rfl, .inr (.inr ⟨hkind, rfl⟩)⟩
  | kept => exact ⟨n, rfl, .inl rfl⟩

/-- An item that a pass leaves in a list was there before and is no node, or it takes the place of a
node of the list, with branches that are nodes of the list. -/
lemma Settling.mem_right {traced : Bool} {holder : Value} {items items' : List Value}
    (h : Settling traced holder items items') {v : Value} (hv : v ∈ items') :
    (v ∈ items ∧ v.node? = none) ∨ ∃ n n' : Node, ∃ later, .node n ∈ items ∧
      (n.settle traced).toExcept = .ok n' ∧ Expand.Gives holder n' later v ∧
      ∀ branch ∈ later, ∃ m m' : Node, .node m ∈ items ∧
        (m.settle traced).toExcept = .ok m' ∧ branch = .node m' := by
  induction h with
  | nil => simp at hv
  | @passed item rest rest' hitem hrest ih =>
    rcases List.mem_cons.mp hv with rfl | hv
    · exact .inl ⟨List.mem_cons_self, hitem⟩
    · rcases ih hv with ⟨hmem, hnone⟩ | ⟨n, n', later, hn, hsettle, hgives, hlater⟩
      · exact .inl ⟨List.mem_cons_of_mem _ hmem, hnone⟩
      · refine .inr ⟨n, n', later, List.mem_cons_of_mem _ hn, hsettle, hgives, ?_⟩
        intro branch hbranch
        obtain ⟨m, m', hm, hrest⟩ := hlater branch hbranch
        exact ⟨m, m', List.mem_cons_of_mem _ hm, hrest⟩
  | @node n n' c? run later u rest rest' hn hc hrun hlater hgives hrest ih =>
    rcases List.mem_cons.mp hv with rfl | hv
    · refine .inr ⟨n, n', later, List.mem_cons_self, hn, hgives, ?_⟩
      intro branch hbranch
      obtain ⟨item, hitem, m, m', rfl, rfl, hm⟩ := exists_of_mem_right_of_forall₂ hlater hbranch
      exact ⟨m, m', List.mem_cons_of_mem _ (List.mem_of_mem_take hitem), hm, rfl⟩
    · rcases ih hv with ⟨hmem, hnone⟩ | ⟨l, l', later, hl, hsettle, hgives, hlater⟩
      · exact .inl ⟨List.mem_cons_of_mem _ (List.mem_of_mem_drop hmem), hnone⟩
      · have hdrop {item : Value} (h : item ∈ rest.drop run) : item ∈ Value.node n :: rest :=
          List.mem_cons_of_mem _ (List.mem_of_mem_drop h)
        refine .inr ⟨l, l', later, hdrop hl, hsettle, hgives, ?_⟩
        intro branch hbranch
        obtain ⟨m, m', hm, hrest⟩ := hlater branch hbranch
        exact ⟨m, m', hdrop hm, hrest⟩

end Expand

/-- All that a settled content holds has a property, if whatever takes the place of a settled node
has it. `S` is what is known of nodes whose slots are settled. -/
lemma Value.settle_everywhere {P S : Node → Prop} {traced : Bool} {holder v v' : Value}
    (hgives : ∀ {n : Node} {later : List Value} {r : Value}, Expand.Gives holder n later r → S n →
      (∀ branch ∈ later, ∃ m : Node, branch = .node m ∧ S m) → r.Everywhere P)
    (hslots : ∀ m ∈ v.slotNodes, ∀ m', (m.settle traced).toExcept = .ok m' → S m')
    (h : (Value.settle traced holder v).toExcept = .ok v') : v'.Everywhere P := by
  cases v with
  | scalar | record =>
    obtain rfl := by simpa [Value.settle] using h
    simp
  | node m =>
    obtain ⟨m', hm, hv⟩ := settle_node_eq_ok h
    exact hgives hv (hslots m (by simp [slotNodes]) m' hm) (by simp)
  | list items =>
    obtain ⟨items', hitems, rfl⟩ := settle_list_eq_ok h
    rw [everywhere_list]
    intro r hr
    rcases hitems.mem_right hr with ⟨-, hnone⟩ | ⟨n, n', later, hn, hsettle, hv, hlater⟩
    · simp [node?] at hnone
    · rw [← everywhere_node]
      refine hgives hv (hslots n (by simpa using hn) n' hsettle) fun branch hbranch => ?_
      obtain ⟨m, m', hm, hm', rfl⟩ := hlater branch hbranch
      exact ⟨m', rfl, hslots m (by simpa using hm) m' hm'⟩

end JsxControl
