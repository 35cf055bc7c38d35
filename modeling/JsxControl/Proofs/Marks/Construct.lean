import JsxControl.Proofs.Acceptance.Elements
import JsxControl.Proofs.Marks.Basic
import JsxControl.Proofs.Meaning.Markup
import Mathlib.Data.List.Nodup
import Mathlib.Data.List.Perm.Basic

/-!
# The marks of a single construct

A construct hands its expressions and its body on to its expansion. All its other marks are those of
its own syntax: of the tags, of the attributes with their braces, and of the braces around an only
child. What is handed on and what is spent make up the marks of a construct.
-/

namespace JsxControl

variable {μ : Type} (k : Marking μ)

/-! ### New nodes -/

section Made

variable (u v w : Value)

@[simp] lemma Node.marks_identifier (name : String) : (identifier name).marks k = [] := by
  simp [marks_eq, identifier, k.mark?_new]

@[simp] lemma Node.marks_nullLiteral : nullLiteral.marks k = [] := by
  simp [marks_eq, nullLiteral, k.mark?_new]

@[simp] lemma Node.marks_member (name : String) : (member v name).marks k = v.marks k := by
  rw [marks_eq]
  simp [member, k.mark?_new]

@[simp] lemma Node.marks_call : (call u v).marks k = u.marks k ++ v.marks k := by
  simp [marks_eq, call, k.mark?_new]

@[simp] lemma Node.marks_arrow : (arrow u v).marks k = u.marks k ++ v.marks k := by
  simp [marks_eq, arrow, k.mark?_new]

@[simp] lemma Node.marks_conditional :
    (conditional u v w).marks k = u.marks k ++ (v.marks k ++ w.marks k) := by
  simp [marks_eq, conditional, k.mark?_new]

@[simp] lemma Node.marks_container : (container v).marks k = v.marks k := by
  simp [marks_eq, container, k.mark?_new]

@[simp] lemma Node.marks_fragment (items : List Value) :
    (fragment items).marks k = items.flatMap (Value.marks k) := by
  simp [marks_eq, fragment, k.mark?_new]

@[simp] lemma Node.marks_emptyStatement : emptyStatement.marks k = [] := by
  simp [marks_eq, emptyStatement, k.mark?_new]

@[simp] lemma Desugar.marks_wrap (b : Bool) : (wrap b v).marks k = v.marks k := by
  cases b <;> simp [wrap]

end Made

/-! ### What is handed on -/

namespace Desugar

/-- The marks of what a value hands on. -/
def share (e : Value) : List μ := (handed e).flatMap (Value.marks k)

lemma share_of_not_node {v : Value} (h : v.node? = none) : share k v = v.marks k := by
  cases v with
  | node n => simp [Value.node?] at h
  | scalar | list | record => simp [share, handed, Value.isGuardStatement, Value.isA]

/-- The branches of a run hand on what the chain that they make is made of. -/
lemma marks_chain_run (rest : List Value) :
    (chain (rest.take (run rest))).marks k = (rest.take (run rest)).flatMap (share k) := by
  induction rest with
  | nil => simp [chain]
  | cons item rest ih =>
    rw [run]
    split
    · next h => simp [chain, share, handed, h, ih]
    · next h => simp [chain, share, handed, h]
    · simp [chain]

/-- What takes the place of an item is made of what the item and the branches that it takes hand on.
-/
lemma marks_single (b : Bool) {e : Value} (he : ¬ e.Continues) (rest : List Value) :
    (single b e (rest.take (taken e rest))).marks k =
      share k e ++ (rest.take (taken e rest)).flatMap (share k) := by
  rw [Value.Continues, not_or] at he
  rw [single, expansion?, taken]
  cases hc : e.construct? with
  | none =>
    cases hguard : e.isGuardStatement <;> simp [share, handed, hc, hguard]
  | some c =>
    cases c with
    | loop | binding => simp [share, handed, hc, function]
    | whenTrue => simp [share, handed, hc, chain, marks_chain_run]
    | otherwiseWhen => exact absurd hc he.1
    | otherwise => exact absurd hc he.2

/-- The items of a list hand on what takes their places, if all branches have their chains. -/
lemma marks_items (b : Bool) {list : List Value} (h : Chained false list) :
    (items b list).flatMap (Value.marks k) = list.flatMap (share k) := by
  match list with
  | [] => rw [items, List.flatMap_nil, List.flatMap_nil]
  | item :: rest =>
    obtain ⟨hitem, hrest⟩ := chained_cons_iff.mp h
    rw [items, List.flatMap_cons, List.flatMap_cons, marks_single k b hitem, marks_items b hrest,
      List.append_assoc, ← List.flatMap_append, List.take_append_drop]
termination_by list.length
decreasing_by
  rw [List.length_drop, List.length_cons]
  omega

end Desugar

/-! ### What is spent -/

/-- The marks of the syntax of an attribute: its own, that of its name and that of the braces around
its value. -/
def Value.attributeSyntax (attr : Value) : List μ :=
  attr.ownMark k ++ (attr.content "name").marks k ++
    if (attr.content "value").isA .jsxExpressionContainer then (attr.content "value").ownMark k
    else []

namespace Desugar

/-- The mark of the braces around an only child, if it is not markup that stands in them. -/
def bodyBraces : List Value → List μ
  | [child] =>
    if child.isA .jsxExpressionContainer && !(child.content "expression").isJsx then
      child.ownMark k
    else []
  | _ => []

/-- The marks of the syntax of an element: its own and those of its tags, those of the syntax of its
attributes, and that of the braces around its body. -/
def syntaxMarks (e : Value) : List μ :=
  let opening := e.content "opening_element"
  e.ownMark k ++ opening.ownMark k ++ (opening.content "name").marks k ++
    (attributes e).flatMap (Value.attributeSyntax k) ++ bodyBraces k (children e) ++
    (e.content "closing_element").marks k

end Desugar

/-- The marks that are lost with a value: those of the syntax of a construct, and all those of a
statement that checks for one. -/
def Value.spent (e : Value) : List μ :=
  if e.construct?.isSome then Desugar.syntaxMarks k e
  else if e.isGuardStatement then e.marks k
  else []

/-- The attributes of an element have names of their own; spreads have none. -/
def Value.DistinctNames (e : Value) : Prop :=
  (((Desugar.attributes e).filter (·.isA .jsxAttribute)).map Value.attributeName).Nodup

/-! ### Grammatical constructs -/

section Element

variable {n : Node}

/-- The marks of an element, by its parts. -/
lemma Node.marks_element (hn : n.Everywhere Grammatical) (hkind : n.kind = .jsxElement) :
    n.marks k = (Value.node n).ownMark k ++ (((Value.node n).content "opening_element").marks k ++
      ((Desugar.children (.node n)).flatMap (Value.marks k) ++
        ((Value.node n).content "closing_element").marks k)) := by
  have hknown : n.kind.isOther = false := by
    rw [hkind]
    rfl
  obtain ⟨first, last, hfields, hnames⟩ := hn.here.fields_of_parent (.inr hkind)
  obtain ⟨rfl, rfl⟩ := hnames hkind
  rw [marks_eq, hfields]
  simp [Value.ownMark]

/-- The marks of the opening tag of an element, by its parts. -/
lemma Node.marks_opening (hn : n.Everywhere Grammatical) (hkind : n.kind = .jsxElement) :
    ((Value.node n).content "opening_element").marks k =
      ((Value.node n).content "opening_element").ownMark k ++
        ((((Value.node n).content "opening_element").content "name").marks k ++
          (Desugar.attributes (.node n)).flatMap (Value.marks k)) := by
  obtain ⟨o, ho, hgrammar, hopening⟩ := opening_of_element hn hkind
  obtain ⟨items, hitems, -⟩ := field_eq_nodes hgrammar "attributes"
    (some [.jsxAttribute, .jsxSpreadAttribute]) (by rw [hopening]; rfl)
  obtain ⟨v, hv, s, rfl⟩ := hgrammar.here.field "self_closing" .scalar (by rw [hopening]; rfl)
  have hattributes : Desugar.attributes (.node n) = items := by
    rw [Desugar.attributes, Value.content_of_node_field ho, Value.content_of_node_field hitems]
    rfl
  have hfields := hgrammar.here.fields_eq (by rw [hopening]; rfl)
  rw [Value.content_of_node_field ho, hattributes, Value.marks_node, marks_eq, hfields, hopening]
  simp [Kind.fieldNames, Kind.layout, FieldSpec.required, FieldSpec.optional, Value.ownMark,
    Value.content_of_node_field hitems, Value.content_of_node_field hv]

/-- The marks of an expression in braces. -/
lemma Node.marks_of_container (hn : n.Grammatical) (hkind : n.kind = .jsxExpressionContainer) :
    n.marks k = (Value.node n).ownMark k ++ ((Value.node n).content "expression").marks k := by
  rw [marks_eq, hn.fields_of_container hkind]
  simp [Value.ownMark]

/-- Children hand on what their body has; the braces around an only child are spent. -/
lemma Desugar.marks_children {children : List Value}
    (h : ∀ child ∈ children, ∃ m : Node, child = .node m ∧ m.Grammatical) :
    (children.flatMap (Value.marks k)).Perm ((body children).marks k ++ bodyBraces k children) := by
  match children with
  | [] | _ :: _ :: _ => simp [body, bodyBraces]
  | [child] =>
    obtain ⟨m, rfl, hm⟩ := h child (by simp)
    rw [body, bodyBraces]
    split_ifs with hbraced hjsx
    · obtain ⟨hkind, -⟩ : m.kind = .jsxExpressionContainer ∧ _ := by simpa using hbraced
      simpa [Node.marks_of_container k hm hkind] using List.perm_append_comm
    · simp
    · simp

/-- The marks of an attribute that gives an expression are those of its syntax and those of the
expression. -/
lemma Node.marks_attribute {a : Node} (ha : a.Everywhere Grammatical)
    (hkind : a.kind = .jsxAttribute)
    (hvalue : ((Value.node a).content "value").isA .jsxExpressionContainer = true) :
    a.marks k = (Value.node a).attributeSyntax k ++
      (((Value.node a).content "value").content "expression").marks k := by
  have hfields := ha.here.fields_eq (by rw [hkind]; rfl)
  obtain ⟨v, hv, -⟩ := ha.here.field "value" _ (by rw [hkind]; rfl)
  rw [Value.content_of_node_field hv] at hvalue
  obtain ⟨c, rfl, hc⟩ := Value.isA_iff.mp hvalue
  have hcontainer : c.Everywhere Grammatical := by simpa using ha.found ha.here.notes hv
  rw [marks_eq, hfields, hkind]
  simp [Kind.fieldNames, Kind.layout, FieldSpec.required, FieldSpec.optional, Value.ownMark,
    Value.attributeSyntax, Value.content_of_node_field hv, hc,
    marks_of_container k hcontainer.here hc]

/-- All attributes of a well-formed construct are named. -/
lemma Construct.WellFormed.nodup_names {c : Construct} {e : Value} (hform : c.WellFormed e)
    (hnames : e.DistinctNames) : ((Desugar.attributes e).map Value.attributeName).Nodup := by
  have hnamed : (Desugar.attributes e).filter (·.isA .jsxAttribute) = Desugar.attributes e := by
    rw [List.filter_eq_self]
    intro attr hattr
    obtain ⟨name, hname, hnamed⟩ := hform.allowed attr hattr
    rw [Desugar.isNamed_iff] at hnamed
    by_contra hspread
    obtain rfl : "..." = name := by simpa [Value.attributeName, hspread] using hnamed
    exact c.spread_not_mem_attributeNames hname
  rwa [Value.DistinctNames, hnamed] at hnames

/-- What the attributes of a well-formed construct give, each under its name, are the expressions
that the construct needs. -/
lemma Construct.WellFormed.attribute {c : Construct} (hform : c.WellFormed (.node n))
    (hn : n.Everywhere Node.Grammatical) (hkind : n.kind = .jsxElement)
    (hnames : (Value.node n).DistinctNames) {attr : Value}
    (hattr : attr ∈ Desugar.attributes (.node n)) : ∃ a : Node, attr = .node a ∧
      a.Everywhere Node.Grammatical ∧ a.kind = .jsxAttribute ∧ ∃ name ∈ c.attributeNames,
        attr.attributeName = .ok (.text name) ∧ Desugar.attribute? (.node n) name = some attr ∧
        (attr.content "value").isA .jsxExpressionContainer = true := by
  obtain ⟨opening, found, hread⟩ := Attributes.exists_read hn hkind
  obtain ⟨name, hname, hnamed⟩ := hform.allowed attr hattr
  obtain ⟨attr', hattr', hcontainer, -⟩ := hform.given name hname
  obtain ⟨hmem, hnamed'⟩ := Desugar.mem_of_attribute? hattr'
  rw [Desugar.isNamed_iff] at hnamed hnamed'
  obtain rfl : attr' = attr :=
    List.inj_on_of_nodup_map (hform.nodup_names hnames) hmem hattr (hnamed'.trans hnamed.symm)
  have hplain : name ≠ "..." := ne_of_mem_of_not_mem hname c.spread_not_mem_attributeNames
  obtain ⟨a, rfl, hattribute, ha⟩ := hread.node_of_attribute? hplain hattr'
  exact ⟨a, rfl, ha, hattribute, name, hname, hnamed, hattr', hcontainer⟩

/-- The expressions that the attributes give are those that the construct needs. -/
lemma Construct.WellFormed.perm_expressions {c : Construct} (hform : c.WellFormed (.node n))
    (hn : n.Everywhere Node.Grammatical) (hkind : n.kind = .jsxElement)
    (hnames : (Value.node n).DistinctNames) :
    ((Desugar.attributes (.node n)).flatMap fun attr =>
      ((attr.content "value").content "expression").marks k).Perm
      (c.attributeNames.flatMap fun name => (Desugar.expression (.node n) name).marks k) := by
  have hgiven {name : String} (hname : name ∈ c.attributeNames) :
      ∃ attr ∈ Desugar.attributes (.node n), Desugar.attribute? (.node n) name = some attr ∧
        attr.attributeName = .ok (.text name) := by
    obtain ⟨attr, hattr, -⟩ := hform.given name hname
    obtain ⟨hmem, hnamed⟩ := Desugar.mem_of_attribute? hattr
    exact ⟨attr, hmem, hattr, Desugar.isNamed_iff.mp hnamed⟩
  have hperm : (Desugar.attributes (.node n)).Perm
      (c.attributeNames.map fun name => (Desugar.attribute? (.node n) name).getD .null) := by
    rw [List.perm_ext_iff_of_nodup]
    · intro attr
      rw [List.mem_map]
      constructor
      · intro hattr
        obtain ⟨-, -, -, -, name, hname, -, hfound, -⟩ := hform.attribute hn hkind hnames hattr
        exact ⟨name, hname, by rw [hfound, Option.getD_some]⟩
      · rintro ⟨name, hname, rfl⟩
        obtain ⟨attr, hattr, hfound, -⟩ := hgiven hname
        rwa [hfound, Option.getD_some]
    · exact (hform.nodup_names hnames).of_map
    · apply List.Nodup.map_on
      · intro name hname name' hname' heq
        obtain ⟨attr, -, hfound, hnamed⟩ := hgiven hname
        obtain ⟨attr', -, hfound', hnamed'⟩ := hgiven hname'
        obtain rfl : attr = attr' := by simpa [hfound, hfound'] using heq
        simpa [hnamed] using hnamed'
      · cases c <;> decide
  refine (hperm.flatMap_right _).trans ?_
  rw [List.flatMap_map]
  rfl

/-- The attributes have their syntax and the expressions that the construct needs. -/
lemma Construct.WellFormed.perm_attributes {c : Construct} (hform : c.WellFormed (.node n))
    (hn : n.Everywhere Node.Grammatical) (hkind : n.kind = .jsxElement)
    (hnames : (Value.node n).DistinctNames) :
    ((Desugar.attributes (.node n)).flatMap (Value.marks k)).Perm
      ((Desugar.attributes (.node n)).flatMap (Value.attributeSyntax k) ++
        c.attributeNames.flatMap fun name => (Desugar.expression (.node n) name).marks k) := by
  have hsplit : (Desugar.attributes (.node n)).flatMap (Value.marks k) =
      (Desugar.attributes (.node n)).flatMap fun attr => attr.attributeSyntax k ++
        ((attr.content "value").content "expression").marks k := by
    apply List.flatMap_congr
    intro attr hattr
    obtain ⟨a, rfl, ha, hattribute, -, -, -, -, hvalue⟩ := hform.attribute hn hkind hnames hattr
    rw [Value.marks_node, Node.marks_attribute k ha hattribute hvalue]
  rw [hsplit]
  refine (List.flatMap_append_perm _ _ _).symm.trans ?_
  exact (hform.perm_expressions k hn hkind hnames).append_left _

/-- What a construct hands on is its expressions and its body. -/
lemma Desugar.perm_share {c : Construct} {e : Value} (hc : e.construct? = some c) :
    (share k e).Perm ((c.attributeNames.flatMap fun name => (expression e name).marks k) ++
      (body (children e)).marks k) := by
  classical
  rw [List.perm_iff_count]
  intro x
  cases c <;> simp [share, handed, hc, Construct.attributeNames] <;> omega

/-- The marks of a node with desugared slots are those that it hands on and those that are spent. -/
lemma Node.perm_marks (hn : n.Everywhere Grammatical) (hform : (Value.node n).WellFormed)
    (hnames : (Value.node n).construct?.isSome → (Value.node n).DistinctNames) :
    (n.marks k).Perm (Desugar.share k (.node n) ++ (Value.node n).spent k) := by
  cases hc : (Value.node n).construct? with
  | none =>
    cases hguard : (Value.node n).isGuardStatement <;>
      simp [Desugar.share, Desugar.handed, Value.spent, hc, hguard]
  | some c =>
    have hkind := kind_of_construct? hc
    have hattributes := (hform c hc).perm_attributes k hn hkind (hnames (by simp [hc]))
    have hchildren : ((Desugar.children (.node n)).flatMap (Value.marks k)).Perm
        ((Desugar.body (Desugar.children (.node n))).marks k ++
          Desugar.bodyBraces k (Desugar.children (.node n))) := by
      apply Desugar.marks_children
      intro child hchild
      obtain ⟨m, rfl, hm⟩ := (children_of_grammatical hn).2 child hchild
      exact ⟨m, rfl, hm.here⟩
    have hshare := Desugar.perm_share k hc
    rw [marks_element k hn hkind, marks_opening k hn hkind, Value.spent, hc, Option.isSome_some,
      if_pos rfl, Desugar.syntaxMarks]
    classical
    rw [List.perm_iff_count] at hattributes hchildren hshare ⊢
    intro x
    have hattributes := hattributes x
    have hchildren := hchildren x
    have hshare := hshare x
    simp only [List.count_append] at hattributes hchildren hshare ⊢
    omega

end Element

end JsxControl
