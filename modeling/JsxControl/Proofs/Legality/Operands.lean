import JsxControl.Proofs.Acceptance.Chains
import JsxControl.Proofs.Acceptance.Desugared
import JsxControl.Proofs.Acceptance.Elements
import JsxControl.Proofs.Legality.Basic

/-!
# Operands in braces

Braces are no operands. A content is bare if what it puts into slots is not in braces, and no
operand in it is. All that a construct hands on stands in slots for operands of its expansion. So if
what takes the place of a construct has no operands in braces, then what the construct has handed on
is bare.
-/

namespace JsxControl

variable {d : Dialect}

/-! ### Operands in braces -/

/-- The categories of slots for operands. -/
def Category.operands : List Category := [.expression, .braced, .argument, .functionBody]

/-- No slot of a node that is for an operand has braces in it. -/
def Node.Unbraced (n : Node) : Prop :=
  ∀ entry ∈ n.fields, ∀ arity category, Entries.get? n.kind.slots entry.1 = some (arity, category) →
    category ∈ Category.operands → ∀ m ∈ entry.2.slotNodes, m.kind ≠ .jsxExpressionContainer

/-- Whether a given node has operands in braces, one field after the other. -/
lemma Node.unbraced_mk {kind : Kind} {fields : List (String × Value)} {origin : Origin} :
    (Node.mk kind fields origin).Unbraced ↔ fields.Forall fun entry =>
      ∀ slot ∈ Entries.get? kind.slots entry.1, slot.2 ∈ Category.operands →
        ∀ m ∈ entry.2.slotNodes, m.kind ≠ .jsxExpressionContainer := by
  rw [Unbraced, List.forall_iff_forall_mem]
  constructor
  · exact fun h entry hentry slot hslot => h entry hentry slot.1 slot.2 hslot
  · exact fun h entry hentry arity category hslot => h entry hentry (arity, category) hslot

/-- What a content puts into slots is not in braces, and neither is any operand in it. -/
def Value.Bare (v : Value) : Prop :=
  ∀ m ∈ v.slotNodes, m.kind ≠ .jsxExpressionContainer ∧ m.Everywhere Node.Unbraced

/-- Legal nodes have no operands in braces. -/
lemma Node.Legal.unbraced {n : Node} (h : n.Legal d) : n.Unbraced := by
  intro entry hentry arity category hslot hcategory m hm hkind
  have hslot : d.slotOf? n.kind entry.1 = some (arity, category) := by
    cases hn : n.kind with
    | other => simp [hn, Kind.slots] at hslot
    | _ => simpa [hn, Dialect.slotOf?] using hslot
  have hallows := (h.slots entry hentry arity category hslot).of_mem_slotNodes hm
  have hbraces : ¬ d.IsOperand .jsxExpressionContainer := Dialect.not_isOperand (by simp)
  rw [hkind] at hallows
  simp only [Category.operands, List.mem_cons, List.not_mem_nil, or_false] at hcategory
  rcases hcategory with rfl | rfl | rfl | rfl <;> simp [Dialect.Allows, hbraces] at hallows

/-! ### Parts of new nodes -/

section Made

variable {u v w : Value}

/-- What a node without operands in braces has in a field for operands is bare. -/
lemma Node.bare_of_entry {n : Node} (h : n.Everywhere Unbraced) (name : String)
    (hentry : (name, v) ∈ n.fields) {arity : Arity} (category : Category)
    (hslot : Entries.get? n.kind.slots name = some (arity, category))
    (hcategory : category ∈ Category.operands) : v.Bare :=
  fun m hm => ⟨h.here _ hentry arity category hslot hcategory m hm, h.field hentry m hm⟩

lemma Value.Bare.everywhere (h : v.Bare) : v.Everywhere Node.Unbraced := fun m hm => (h m hm).2

@[simp] lemma Value.bare_node {n : Node} :
    (Value.node n).Bare ↔ n.kind ≠ .jsxExpressionContainer ∧ n.Everywhere Node.Unbraced := by
  simp only [Bare, slotNodes, List.mem_singleton, forall_eq]

lemma Value.bare_singleton {n : Node} : (Value.list [.node n]).Bare ↔ (Value.node n).Bare := by
  rw [bare_node]
  simp [Bare]

lemma Node.bare_of_container (h : (container v).Everywhere Unbraced) : v.Bare :=
  bare_of_entry h "expression" (by simp [container]) .braced rfl (by simp [Category.operands])

lemma Node.bare_of_member {name : String} (h : (member v name).Everywhere Unbraced) : v.Bare :=
  bare_of_entry h "object" (by simp [member]) .expression rfl (by simp [Category.operands])

lemma Node.bare_of_call (h : (call u v).Everywhere Unbraced) :
    u.Bare ∧ (Value.list [v]).Bare := by
  constructor
  · exact bare_of_entry h "callee" (by simp [call]) .expression rfl (by simp [Category.operands])
  · exact bare_of_entry h "arguments" (by simp [call]) .argument rfl (by simp [Category.operands])

lemma Node.bare_of_arrow (h : (arrow u v).Everywhere Unbraced) :
    (Value.list [u]).Everywhere Unbraced ∧ v.Bare := by
  constructor
  · exact h.field (show ("params", .list [u]) ∈ _ by simp [arrow])
  · exact bare_of_entry h "body" (by simp [arrow]) .functionBody rfl (by simp [Category.operands])

lemma Node.bare_of_conditional (h : (conditional u v w).Everywhere Unbraced) :
    u.Bare ∧ v.Bare ∧ w.Bare := by
  refine ⟨?_, ?_, ?_⟩
  · exact bare_of_entry h "test" (by simp [conditional]) .expression rfl
      (by simp [Category.operands])
  · exact bare_of_entry h "consequent" (by simp [conditional]) .expression rfl
      (by simp [Category.operands])
  · exact bare_of_entry h "alternate" (by simp [conditional]) .expression rfl
      (by simp [Category.operands])

/-- What is put in braces is bare, wherever the braces stand. -/
lemma Desugar.bare_of_wrap {b : Bool}
    (h : ∀ n : Node, wrap b v = .node n → n.Everywhere Node.Unbraced) : v.Bare := by
  apply Node.bare_of_container
  cases b with
  | true => exact h _ rfl
  | false =>
    have hchildren := (h (.fragment [.node (.container v)]) rfl).field
      (show ("children", .list [.node (.container v)]) ∈ _ by simp [Node.fragment])
    simpa [Value.everywhere_list] using hchildren

end Made

/-- Braces around what is bare have no operand in braces. -/
lemma Node.everywhere_of_container {n : Node} (hn : n.Grammatical)
    (hkind : n.kind = .jsxExpressionContainer)
    (h : ((Value.node n).content "expression").Bare) : n.Everywhere Unbraced := by
  have hfields := hn.fields_of_container hkind
  refine everywhere_iff.mpr ⟨?_, ?_⟩
  · intro entry hentry _ _ _ _ m hm
    obtain rfl : entry = _ := by simpa [hfields] using hentry
    exact (h m hm).1
  · intro entry hentry
    obtain rfl : entry = _ := by simpa [hfields] using hentry
    exact h.everywhere

/-- If a body is bare, no operand is in braces in the children that it is made of. -/
lemma Desugar.everywhere_of_body {children : List Value}
    (hchildren : ∀ child ∈ children, ∃ m : Node, child = .node m ∧ m.Everywhere Node.Grammatical)
    (h : (body children).Bare) : (Value.list children).Everywhere Node.Unbraced := by
  have hfragment {items : List Value} (h : (Value.node (.fragment items)).Bare) :
      (Value.list items).Everywhere Node.Unbraced :=
    (Value.bare_node.mp h).2.field (show ("children", .list items) ∈ _ by simp [Node.fragment])
  cases children with
  | nil => exact hfragment h
  | cons child rest =>
    cases rest with
    | cons => exact hfragment h
    | nil =>
      obtain ⟨m, rfl, hm⟩ := hchildren child (by simp)
      rw [body] at h
      split_ifs at h with hbraced hjsx
      · obtain ⟨hkind, -⟩ : m.kind = .jsxExpressionContainer ∧ _ := by simpa using hbraced
        simpa [Value.everywhere_list] using Node.everywhere_of_container hm.here hkind h
      · exact hfragment h
      · simpa [Value.everywhere_list] using h.everywhere

/-! ### Parts of expansions -/

/-- What a construct hands on is bare, and a node that stays has no operands in braces. -/
structure Value.HandsBare (e : Value) : Prop where
  parts : e.construct?.isSome → ∀ v ∈ Desugar.handed e, v.Bare
  whole : e.construct? = none → e.isGuardStatement = false →
    ∀ n : Node, e = .node n → n.Everywhere Node.Unbraced

/-- A value in a slot is a node of a grammatical tree, and well-formed if it is a construct; or it
is no node. -/
def Value.Proper (v : Value) : Prop :=
  ∀ n : Node, v = .node n → n.Everywhere Node.Grammatical ∧ v.WellFormed

namespace Desugar

/-- The expression that a well-formed construct needs is a node. -/
lemma exists_expression_eq_node {e : Value} (he : e.Proper) {c : Construct}
    (hc : e.construct? = some c) {name : String} (hname : name ∈ c.attributeNames) :
    ∃ n : Node, expression e name = .node n := by
  obtain ⟨n, rfl, hkind⟩ := Value.eq_node_of_construct? hc
  obtain ⟨hn, hform⟩ := he n rfl
  have hplain : name ≠ "..." := ne_of_mem_of_not_mem hname c.spread_not_mem_attributeNames
  obtain ⟨m, hm, -⟩ := isGrammatical_expression hn hkind hplain ((hform c hc).given name hname)
  exact ⟨m, hm⟩

/-- The function that a well-formed construct makes takes its variable and its body bare. -/
lemma bare_of_function {e : Value} (he : e.Proper) {c : Construct} (hc : e.construct? = some c)
    (hvar : "var" ∈ c.attributeNames) (h : (function e).Everywhere Node.Unbraced) :
    (expression e "var").Bare ∧ (body (children e)).Bare := by
  obtain ⟨n, rfl, hkind⟩ := Value.eq_node_of_construct? hc
  have harrow : (Node.arrow (expression (.node n) "var") (body (children (.node n)))).Everywhere
      Node.Unbraced := by
    simpa [function] using h
  obtain ⟨hparam, hbody⟩ := Node.bare_of_arrow harrow
  obtain ⟨x, hx, hidentifier⟩ := Value.isA_iff.mp (((he n rfl).2 c hc).bound hvar)
  rw [hx, Value.everywhere_list] at hparam
  rw [hx, Value.bare_node]
  exact ⟨⟨by simp [hidentifier], hparam x (by simp)⟩, hbody⟩

/-- In a chain that is bare, all branches hand on what is bare. -/
lemma handsBare_of_chain_run {rest : List Value}
    (h : (chain (rest.take (run rest))).Bare) :
    ∀ item ∈ rest.take (run rest), item.HandsBare := by
  induction rest with
  | nil => simp
  | cons item rest ih =>
    cases hc : item.construct? with
    | none => simp [run, hc]
    | some c =>
      cases c with
      | otherwiseWhen =>
        have hrun : run (item :: rest) = run rest + 1 := by simp [run, hc]
        rw [hrun, List.take_succ_cons] at h ⊢
        simp only [chain, hc] at h
        obtain ⟨htest, hbody, hlater⟩ :=
          Node.bare_of_conditional (by simpa using h.everywhere)
        rw [List.forall_mem_cons]
        refine ⟨⟨fun _ => ?_, by simp [hc]⟩, ih hlater⟩
        simp [handed, hc, htest, hbody]
      | otherwise =>
        have hrun : run (item :: rest) = 1 := by simp [run, hc]
        rw [hrun, List.take_succ_cons, List.take_zero] at h ⊢
        simp only [chain, hc, if_true] at h
        rw [List.forall_mem_singleton]
        refine ⟨fun _ => ?_, by simp [hc]⟩
        simpa [handed, hc] using h
      | loop | binding | whenTrue => simp [run, hc]

/-- If the expansion of a construct is bare, the construct and the branches that it takes hand on
what is bare. -/
lemma handsBare_of_expansion {e x : Value} (he : e.Proper) {rest : List Value}
    (hx : expansion? e (rest.take (taken e rest)) = some x) (h : x.Bare) :
    e.HandsBare ∧ ∀ item ∈ rest.take (taken e rest), item.HandsBare := by
  rw [expansion?] at hx
  cases hc : e.construct? with
  | none => simp [hc] at hx
  | some c =>
    simp only [hc] at hx
    cases c with
    | loop =>
      obtain rfl := Option.some.inj hx
      obtain ⟨hmember, hfunction⟩ := Node.bare_of_call (by simpa using h.everywhere)
      have hof := Node.bare_of_member (by simpa using hmember.everywhere)
      obtain ⟨hvar, hbody⟩ := bare_of_function he hc (by decide)
        (Value.bare_singleton.mp hfunction).everywhere
      refine ⟨⟨fun _ => ?_, by simp [hc]⟩, by simp [taken, hc]⟩
      simp [handed, hc, hof, hvar, hbody]
    | binding =>
      obtain rfl := Option.some.inj hx
      obtain ⟨hfunction, hvalue⟩ := Node.bare_of_call (by simpa using h.everywhere)
      obtain ⟨hvar, hbody⟩ := bare_of_function he hc (by decide) hfunction.everywhere
      have hvalue : (expression e "value").Bare := by
        obtain ⟨n, hn⟩ := exists_expression_eq_node he hc (show "value" ∈ _ by decide)
        rw [hn] at hvalue ⊢
        exact Value.bare_singleton.mp hvalue
      refine ⟨⟨fun _ => ?_, by simp [hc]⟩, by simp [taken, hc]⟩
      simp [handed, hc, hvalue, hvar, hbody]
    | whenTrue =>
      obtain rfl := Option.some.inj hx
      have htaken : taken e rest = run rest := by simp [taken, hc]
      rw [htaken] at h ⊢
      simp only [chain, hc] at h
      obtain ⟨htest, hbody, hlater⟩ := Node.bare_of_conditional (by simpa using h.everywhere)
      refine ⟨⟨fun _ => ?_, by simp [hc]⟩, handsBare_of_chain_run hlater⟩
      simp [handed, hc, htest, hbody]
    | otherwiseWhen | otherwise => simp at hx

/-- Every construct has an expansion, if it does not continue a chain. -/
lemma construct?_of_expansion? {e : Value} (hplaced : ¬ e.Continues) {later : List Value}
    (h : expansion? e later = none) : e.construct? = none := by
  rw [Value.Continues, not_or] at hplaced
  cases hc : e.construct? with
  | none => rfl
  | some c =>
    cases c with
    | loop | binding | whenTrue => simp [expansion?, hc] at h
    | otherwiseWhen => exact absurd hc hplaced.1
    | otherwise => exact absurd hc hplaced.2

/-- If no operand is in braces in what takes the place of a value, the value and the branches that
it takes hand on what is bare. -/
lemma handsBare_of_single {b : Bool} {e : Value} (he : e.Proper) (hplaced : ¬ e.Continues)
    {rest : List Value} (h : ∀ n : Node, single b e (rest.take (taken e rest)) = .node n →
      n.Everywhere Node.Unbraced) :
    e.HandsBare ∧ ∀ item ∈ rest.take (taken e rest), item.HandsBare := by
  rw [single] at h
  split at h
  · next x hx => exact handsBare_of_expansion he hx (bare_of_wrap h)
  · next hx =>
    have hc := construct?_of_expansion? hplaced hx
    refine ⟨⟨by simp [hc], fun _ hguard => ?_⟩, by simp [taken, hc]⟩
    simpa [hguard] using h

/-- If no operand is in braces in what takes the places of the items of a list, all items hand on
what is bare. -/
lemma handsBare_of_items {b : Bool} {list : List Value} (hchained : Chained false list)
    (hlist : ∀ item ∈ list, item.Proper)
    (h : ∀ n : Node, .node n ∈ items b list → n.Everywhere Node.Unbraced) :
    ∀ item ∈ list, item.HandsBare := by
  match list with
  | [] => simp
  | item :: rest =>
    obtain ⟨hitem, hrest⟩ := chained_cons_iff.mp hchained
    rw [items] at h
    rw [List.forall_mem_cons] at hlist
    have hsingle : ∀ n : Node, single b item (rest.take (taken item rest)) = .node n →
        n.Everywhere Node.Unbraced := fun n hn => h n (by simp [hn])
    obtain ⟨hfirst, htaken⟩ := handsBare_of_single hlist.1 hitem hsingle
    have hlater := handsBare_of_items hrest
      (fun item hitem => hlist.2 item (List.mem_of_mem_drop hitem))
      (fun n hn => h n (List.mem_cons_of_mem _ hn))
    rw [List.forall_mem_cons]
    refine ⟨hfirst, ?_⟩
    intro item hitem
    rw [← List.take_append_drop (taken _ rest) rest, List.mem_append] at hitem
    exact hitem.elim (htaken item) (hlater item)
termination_by list.length
decreasing_by
  rw [List.length_drop, List.length_cons]
  omega

/-- If the expression in the braces that take the place of a node is bare, the node hands on what is
bare. -/
lemma handsBare_of_braces {n : Node} (hn : (Value.node n).Proper)
    (hplaced : ¬ (Value.node n).Continues)
    (hbraces : (single true (.node n) []).isA .jsxExpressionContainer = true)
    (h : ((single true (.node n) []).content "expression").Bare) : (Value.node n).HandsBare := by
  rw [single] at hbraces h
  split at h
  · next x hx =>
    have hx : expansion? (.node n) (([] : List Value).take (taken (.node n) [])) = some x := by
      simpa using hx
    exact (handsBare_of_expansion hn hx h).1
  · next hx =>
    have hc := construct?_of_expansion? hplaced hx
    refine ⟨by simp [hc], fun _ hguard m hm => ?_⟩
    obtain rfl := Value.node.inj hm
    simp only [hx, hguard] at hbraces h
    exact Node.everywhere_of_container (hn n rfl).1.here (by simpa using hbraces) h

end Desugar

end JsxControl
