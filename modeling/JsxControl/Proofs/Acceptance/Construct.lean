import JsxControl.Proofs.Acceptance.Attributes
import JsxControl.Proofs.Acceptance.Judged

/-!
# Constructs in grammatical trees

A construct is well-formed if it has the attributes that it needs and no others. Whether or not it
is, in a grammatical tree its children make one expression, what holds it can be asked whether it is
markup, and a trace can tell of it.
-/

namespace JsxControl

/-- The names of the attributes that a construct needs. -/
def Construct.attributeNames : Construct → List String
  | loop => ["var", "of"]
  | whenTrue | otherwiseWhen => ["test"]
  | otherwise => []
  | binding => ["var", "value"]

lemma Construct.spread_not_mem_attributeNames (c : Construct) : "..." ∉ c.attributeNames := by
  cases c <;> decide

/-- An element has the attributes that a construct needs and no others, each giving an expression,
and the variable that it binds is an identifier. -/
structure Construct.WellFormed (c : Construct) (element : Value) : Prop where
  allowed : ∀ attr ∈ Desugar.attributes element, ∃ name ∈ c.attributeNames, Desugar.isNamed name attr
  given : ∀ name ∈ c.attributeNames, Desugar.Given element name
  bound : "var" ∈ c.attributeNames → (Desugar.expression element "var").isA .identifier

lemma Construct.wellFormed_iff {c : Construct} {element : Value} :
    c.WellFormed element ↔
      (∀ attr ∈ Desugar.attributes element, ∃ name ∈ c.attributeNames, Desugar.isNamed name attr) ∧
        (∀ name ∈ c.attributeNames, Desugar.Given element name) ∧
        ("var" ∈ c.attributeNames → (Desugar.expression element "var").isA .identifier) :=
  ⟨fun h => ⟨h.allowed, h.given, h.bound⟩, fun h => ⟨h.1, h.2.1, h.2.2⟩⟩

/-- A value that is a construct is a well-formed one. -/
def Value.WellFormed (v : Value) : Prop := ∀ c, v.construct? = some c → c.WellFormed v

namespace Expand

/-! ### Bodies and places -/

/-- What can hold an element: nothing, or a node of a grammatical tree. -/
def CanHold (holder : Value) : Prop := holder = .null ∨ ∃ n : Node, holder = .node n ∧ n.Grammatical

lemma CanHold.isMarkup {holder : Value} (h : CanHold holder) : ∃ b, holder.isMarkup = .ok b := by
  rcases h with rfl | ⟨n, rfl, hn⟩
  · exact ⟨false, rfl⟩
  · exact ⟨_, hn.isMarkup⟩

lemma CanHold.notes {holder : Value} (h : CanHold holder) {n : Node} (hn : .node n = holder) :
    n.origin.notes = [] := by
  rcases h with rfl | ⟨m, rfl, hm⟩
  · simp at hn
  · obtain rfl : n = m := by simpa using hn
    exact hm.notes

lemma wrap_eq {holder : Value} (h : CanHold holder) (e : Value) :
    wrap e holder = .ok (Desugar.wrap holder.isJsx e) := by
  obtain ⟨b, hb⟩ := h.isMarkup
  have hok : ∃ v, wrap e holder = .ok v := ⟨_, by rw [wrap, hb]; rfl⟩
  obtain ⟨v, hv⟩ := hok
  rw [hv, wrap_eq_ok hv]

variable {element : Node}

lemma children_eq (h : element.Everywhere Node.Grammatical) (hkind : element.kind = .jsxElement) :
    ∃ items, element.field "children" = .ok (.list items) ∧
      Desugar.children (.node element) = items ∧
      ∀ item ∈ items, ∃ m : Node, item = .node m ∧ m.Everywhere Node.Grammatical := by
  obtain ⟨items, hitems, hnodes⟩ := Node.field_eq_nodes h "children" none (by rw [hkind]; rfl)
  refine ⟨items, hitems, by rw [Desugar.children, Value.content_of_node_field hitems]; rfl, ?_⟩
  intro item hitem
  obtain ⟨m, rfl, -, hm⟩ := hnodes item hitem
  exact ⟨m, rfl, hm⟩

lemma childExpression?_node {m : Node} (hm : m.Everywhere Node.Grammatical) :
    ∃ e?, childExpression? (.node m) = .ok e? := by
  have hmarkup := hm.here.isMarkup
  by_cases hcontainer : m.kind = .jsxExpressionContainer
  · obtain ⟨e, he, -, hgrammatical⟩ := Node.field_eq_node hm "expression" none
      (by rw [hcontainer]; rfl)
    have hinner := hgrammatical.here.isMarkup
    cases hjsx : (Value.node e).isJsx <;>
      exact ⟨_, by simp [childExpression?, hcontainer, he, hinner, hjsx, hmarkup]; rfl⟩
  · exact ⟨_, by simp only [childExpression?, Value.isA_node, hcontainer, hmarkup]; rfl⟩

lemma body_children_eq (h : element.Everywhere Node.Grammatical)
    (hkind : element.kind = .jsxElement) :
    ∃ v, (Value.node element).field "children" = .ok v ∧
      body v = .ok (Desugar.body (Desugar.children (.node element))) := by
  obtain ⟨items, hitems, hchildren, hnodes⟩ := children_eq h hkind
  have hok : ∃ result, body (.list items) = .ok result := by
    match items with
    | [] | _ :: _ :: _ => exact ⟨_, rfl⟩
    | [item] =>
      obtain ⟨m, rfl, hm⟩ := hnodes item (by simp)
      obtain ⟨e?, he⟩ := childExpression?_node hm
      cases e? <;> exact ⟨_, by simp [body, Value.items, he]; rfl⟩
  obtain ⟨result, hresult⟩ := hok
  refine ⟨_, hitems, ?_⟩
  rw [hresult, body_eq_ok hresult, hchildren]
  rfl

/-! ### Single constructs -/

/-- The values that a complaint about an element is placed by. -/
lemma CanHold.plain {holder : Value} (h : CanHold holder) {opening : Node}
    (helement : element.origin.notes = []) (hopening : opening.origin.notes = []) :
    Plain [holder, .node element, .node opening] := by
  intro n hn
  simp only [List.mem_cons, List.not_mem_nil, or_false, Value.node.injEq] at hn
  rcases hn with hn | rfl | rfl
  · exact h.notes hn
  · exact helement
  · exact hopening

end Expand

/-! ### Expansions -/

open Expand

section Expansions

variable {element : Node} {holder : Value} {later : List Value}

/-- Branches that continue a chain, in a grammatical tree. -/
def Branches (later : List Value) : Prop :=
  ∀ e ∈ later, ∃ n : Node, e = .node n ∧ n.Everywhere Node.Grammatical ∧ e.Continues

/-! ### What is told -/

section Told

variable {J : Prop}

/-- The opening tag of an element can be quoted. -/
lemma Node.opening_writes {n : Node} (hn : n.Everywhere (Writable J)) (hkind : n.kind = .jsxElement) :
    Writes J (do (← (Value.node n).field "opening_element").source) := by
  obtain ⟨o, ho, -, hopening⟩ := Writable.demanding.field_eq_node hn "opening_element"
    (some [.jsxOpeningElement]) (by rw [hkind]; rfl)
  rw [Value.field, ho, ok_bind]
  exact Value.source_writes hopening

lemma Source.mapM_writes {list : List Value} {f : Value → Except Fault Value}
    (h : ∀ v ∈ list, Writes J (f v)) : WritesAll J (list.mapM f) := by
  induction list with
  | nil => exact .ok ⟨[], rfl⟩
  | cons v rest ih =>
    rw [List.forall_mem_cons] at h
    rw [List.mapM_cons]
    exact h.1.bind fun s => (ih h.2).bind fun texts => .ok ⟨s :: texts, rfl⟩

/-- An element whose parts can all be written. -/
def Value.IsWritableElement (J : Prop) (v : Value) : Prop :=
  ∃ n : Node, v = .node n ∧ n.kind = .jsxElement ∧ n.Everywhere (Node.Writable J)

/-- What a trace says of a construct can be written. -/
lemma Construct.announcement_yields {c : Construct} {element : Value} {later : List Value}
    (h : element.IsWritableElement J) (hlater : ∀ branch ∈ later, branch.IsWritableElement J) :
    Yields J (fun _ => True) (c.announcement element later) := by
  have hopening {e : Value} (he : e.IsWritableElement J) :
      Writes J (do (← e.field "opening_element").source) := by
    obtain ⟨n, rfl, hkind, hn⟩ := he
    exact n.opening_writes hn hkind
  cases c with
  | loop | binding =>
    simp only [announcement, ← bind_assoc]
    exact (hopening h).bind fun s => .ok trivial
  | whenTrue =>
    have hall : ∀ e ∈ element :: later, Writes J (do (← e.field "opening_element").source) := by
      rw [List.forall_mem_cons]
      exact ⟨hopening h, fun e he => hopening (hlater e he)⟩
    exact (Source.mapM_writes hall).joined _ fun s => .ok trivial
  | otherwiseWhen | otherwise => exact .ok trivial

end Told

lemma Construct.announcement_eq_ok (h : element.Everywhere Node.Grammatical)
    {c : Construct} (hc : (Value.node element).construct? = some c) (hlater : Branches later) :
    ∃ line?, c.announcement (.node element) later = .ok line? := by
  have hwritable {n : Node} (hn : n.Everywhere Node.Grammatical) {c : Construct}
      (hc : (Value.node n).construct? = some c) : (Value.node n).IsWritableElement False :=
    ⟨n, rfl, Node.kind_of_construct? hc, hn.imp fun _ h => h.writable⟩
  have hbranches : ∀ branch ∈ later, branch.IsWritableElement False := by
    intro branch hbranch
    obtain ⟨n, rfl, hn, hcont | hcont⟩ := hlater branch hbranch
    · exact hwritable hn hcont
    · exact hwritable hn hcont
  obtain ⟨line?, hline, -⟩ := (announcement_yields (hwritable h hc) hbranches).exists_ok
  exact ⟨line?, hline⟩

/-! ### Leaving a node -/

/-- Whether something takes the place of a node, and what. -/
def Desugar.replacement? (inMarkup : Bool) (element : Value) (later : List Value) : Option Value :=
  if element.construct? = none ∧ element.isGuardStatement = false then none
  else some (single inMarkup element later)

lemma Desugar.getD_replacement? (b : Bool) (v : Value) (later : List Value) :
    (replacement? b v later).getD v = single b v later := by
  rw [replacement?]
  split_ifs with h
  · simp [single, expansion?, h.1, h.2]
  · rfl

/-- The statement that checks for a pseudo-element can be told from others. -/
lemma Node.guard_eq_ok {n : Node} (h : n.Everywhere Grammatical)
    (hkind : n.kind = .expressionStatement) :
    (n.field "expression" >>= Value.isReferenceGuard) = .ok (Value.node n).isGuardStatement := by
  obtain ⟨e, he, -, hgrammatical⟩ := field_eq_node h "expression" none (by rw [hkind]; rfl)
  obtain ⟨b, hb⟩ := isReferenceGuard_eq_ok hgrammatical
  simp [he, hb, Value.isGuardStatement, hkind, Value.content_of_node_field he, Except.toOption]

lemma Construct.ofValue?_eq_ok {n : Node} (h : n.Everywhere Node.Grammatical) :
    ofValue? (.node n) = .ok (Value.node n).construct? := by
  obtain ⟨s, hs⟩ := Node.tagName_eq_ok h
  have hok : ofValue? (.node n) = .ok (ofName? s) := by simp [ofValue?, hs, Value.key]
  rw [hok, Value.construct?_of_ofValue? hok]

end Expansions

end JsxControl
