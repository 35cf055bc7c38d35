import JsxControl.Proofs.Desugar.Agreement
import JsxControl.Proofs.Exchange.Documents

/-!
# Properties of all that a tree holds

`Node.Everywhere` speaks of the nodes in slots, which are those that a pass treats. A tree holds
more: nodes in lists within lists, which no pass looks at, and records, which are kept as they were
read. `Value.Throughout P Q` says `P` of every node and `Q` of every record.

Such a property comes into a tree when the tree is read, and a pass keeps it if it is kept where the
fields of a node are desugared and holds of the nodes that the pass makes.
-/

namespace JsxControl

open Entries

/-- A property of every node, and one of every record, at any depth of a value. -/
inductive Value.Throughout (P : Node → Prop) (Q : List (String × Json) → Prop) : Value → Prop
  | scalar (s : Scalar) : Throughout P Q (.scalar s)
  | list {items : List Value} (h : ∀ item ∈ items, Throughout P Q item) : Throughout P Q (.list items)
  | record {members : List (String × Json)} (h : Q members) : Throughout P Q (.record members)
  | node {n : Node} (h : P n) (hfields : ∀ entry ∈ n.fields, Throughout P Q entry.2) :
    Throughout P Q (.node n)

/-- A node as the library makes it: of a known kind, with the fields of its kind, and read nowhere.
-/
structure Node.Made (n : Node) : Prop where
  known : n.kind.isOther = false
  fields : names n.fields = n.kind.fieldNames
  origin : n.origin = {}

/-- A property that a pass keeps. -/
structure Node.Lasting (P : Node → Prop) : Prop where
  notes : ∀ n, P n → n.origin.notes = []
  made : ∀ n, Made n → P n
  desugar : ∀ n, P n → P n.desugar

variable {P : Node → Prop} {Q : List (String × Json) → Prop}

/-! ### What a value shows -/

namespace Value.Throughout

variable {v : Value}

lemma imp {P' : Node → Prop} {Q' : List (String × Json) → Prop} (h : v.Throughout P Q)
    (hP : ∀ n, P n → P' n) (hQ : ∀ members, Q members → Q' members) : v.Throughout P' Q' := by
  induction h with
  | scalar s => exact .scalar s
  | list _ ih => exact .list ih
  | record h => exact .record (hQ _ h)
  | node h _ ih => exact .node (hP _ h) ih

lemma item {items : List Value} (h : (Value.list items).Throughout P Q) {u : Value}
    (hu : u ∈ items) : u.Throughout P Q := by
  cases h with
  | list h => exact h u hu

lemma here {n : Node} (h : (Value.node n).Throughout P Q) : P n := by
  cases h with
  | node h => exact h

lemma field {n : Node} (h : (Value.node n).Throughout P Q) {entry : String × Value}
    (hentry : entry ∈ n.fields) : entry.2.Throughout P Q := by
  cases h with
  | node _ hfields => exact hfields entry hentry

lemma content (hP : Node.Lasting P) (h : v.Throughout P Q) (name : String) :
    (v.content name).Throughout P Q := by
  cases hfield : v.field name with
  | error =>
    simp only [Value.content, hfield, Except.toOption, Option.getD_none]
    exact .scalar _
  | ok u =>
    rw [content_of_field hfield]
    cases v with
    | node n =>
      obtain ⟨-, hget⟩ := (Node.field_eq_ok_iff (hP.notes n h.here)).mp hfield
      exact h.field (mem_of_get? hget)
    | scalar | list | record => simp [Value.field] at hfield

lemma parts (h : v.Throughout P Q) {u : Value} (hu : u ∈ v.parts) : u.Throughout P Q := by
  cases v with
  | list items => exact h.item hu
  | scalar s =>
    cases s with
    | text s =>
      obtain ⟨c, -, rfl⟩ : ∃ c ∈ s.toList, Value.text (String.singleton c) = u := by
        simpa [Value.parts, Value.items, Except.toOption] using hu
      exact .scalar _
    | null | bool | int | float => simp [Value.parts, Value.items, Except.toOption] at hu
  | record members =>
    obtain ⟨name, json, -, rfl⟩ : ∃ name json, (name, json) ∈ members ∧ Value.text name = u := by
      simpa [Value.parts, Value.items, Except.toOption] using hu
    exact .scalar _
  | node => simp [Value.parts, Value.items, Except.toOption] at hu

end Value.Throughout

/-! ### Nodes that a pass makes -/

namespace Node.Lasting

variable (hP : Lasting P)
include hP

/-- A node that the library makes has a property that lasts if the contents of its fields have it. -/
lemma throughout_made {n : Node} (hn : n.Made)
    (h : ∀ entry ∈ n.fields, entry.2.Throughout P Q) : (Value.node n).Throughout P Q :=
  .node (hP.made n hn) h

lemma throughout_identifier (name : String) :
    (Value.node (.identifier name)).Throughout P Q := by
  refine hP.throughout_made ⟨rfl, rfl, rfl⟩ ?_
  simp [identifier, Value.Throughout.scalar]

lemma throughout_nullLiteral : (Value.node .nullLiteral).Throughout P Q := by
  refine hP.throughout_made ⟨rfl, rfl, rfl⟩ ?_
  simp [nullLiteral, Value.Throughout.scalar]

/-- A node of a kind without fields. -/
lemma throughout_bare {kind : Kind} (hknown : kind.isOther = false) (hnames : kind.fieldNames = []) :
    (Value.node ⟨kind, [], {}⟩).Throughout P Q :=
  hP.throughout_made ⟨hknown, hnames.symm, rfl⟩ (by simp)

lemma throughout_conditional {test consequent alternate : Value} (htest : test.Throughout P Q)
    (hconsequent : consequent.Throughout P Q) (halternate : alternate.Throughout P Q) :
    (Value.node (.conditional test consequent alternate)).Throughout P Q := by
  refine hP.throughout_made ⟨rfl, rfl, rfl⟩ ?_
  simp [conditional, htest, hconsequent, halternate]

lemma throughout_arrow {param body : Value} (hparam : param.Throughout P Q)
    (hbody : body.Throughout P Q) : (Value.node (.arrow param body)).Throughout P Q := by
  refine hP.throughout_made ⟨rfl, rfl, rfl⟩ ?_
  have hparams : (Value.list [param]).Throughout P Q := .list (by simpa using hparam)
  simp [arrow, hparams, hbody, Value.Throughout.scalar]

lemma throughout_member {object : Value} (hobject : object.Throughout P Q) (name : String) :
    (Value.node (.member object name)).Throughout P Q := by
  refine hP.throughout_made ⟨rfl, rfl, rfl⟩ ?_
  simp [member, hobject, hP.throughout_identifier name, Value.Throughout.scalar]

lemma throughout_call {function argument : Value} (hfunction : function.Throughout P Q)
    (hargument : argument.Throughout P Q) :
    (Value.node (.call function argument)).Throughout P Q := by
  refine hP.throughout_made ⟨rfl, rfl, rfl⟩ ?_
  have harguments : (Value.list [argument]).Throughout P Q := .list (by simpa using hargument)
  simp [call, hfunction, harguments, Value.Throughout.scalar]

lemma throughout_container {e : Value} (he : e.Throughout P Q) :
    (Value.node (.container e)).Throughout P Q := by
  refine hP.throughout_made ⟨rfl, rfl, rfl⟩ ?_
  simp [container, he]

lemma throughout_fragment {children : List Value} (h : ∀ child ∈ children, child.Throughout P Q) :
    (Value.node (.fragment children)).Throughout P Q := by
  refine hP.throughout_made ⟨rfl, rfl, rfl⟩ ?_
  have hopening : (Value.node ⟨.jsxOpeningFragment, [], {}⟩).Throughout P Q :=
    hP.throughout_bare rfl rfl
  have hclosing : (Value.node ⟨.jsxClosingFragment, [], {}⟩).Throughout P Q :=
    hP.throughout_bare rfl rfl
  have hchildren : (Value.list children).Throughout P Q := .list h
  simp [fragment, hopening, hclosing, hchildren]

/-! ### Expansions -/

lemma throughout_children {element : Value} (h : element.Throughout P Q) :
    ∀ child ∈ Desugar.children element, child.Throughout P Q :=
  fun _ hchild => (h.content hP "children").parts hchild

lemma throughout_expression {element : Value} (h : element.Throughout P Q) (name : String) :
    (Desugar.expression element name).Throughout P Q := by
  have hattr : ((Desugar.attribute? element name).getD .null).Throughout P Q := by
    cases hattr : Desugar.attribute? element name with
    | none => exact .scalar _
    | some attr =>
      have hmem : attr ∈ Desugar.attributes element :=
        List.mem_reverse.mp (List.mem_of_find?_eq_some hattr)
      exact ((h.content hP "opening_element").content hP "attributes").parts hmem
  exact (hattr.content hP "value").content hP "expression"

lemma throughout_body {items : List Value} (h : ∀ item ∈ items, item.Throughout P Q) :
    (Desugar.body items).Throughout P Q := by
  unfold Desugar.body
  split
  · next child =>
    have hchild := h child List.mem_cons_self
    split_ifs
    · exact hchild.content hP "expression"
    · exact hP.throughout_fragment h
    · exact hchild
  · exact hP.throughout_fragment h

lemma throughout_function {element : Value} (h : element.Throughout P Q) :
    (Desugar.function element).Throughout P Q :=
  hP.throughout_arrow (hP.throughout_expression h "var")
    (hP.throughout_body (hP.throughout_children h))

lemma throughout_chain {elements : List Value} (h : ∀ element ∈ elements, element.Throughout P Q) :
    (Desugar.chain elements).Throughout P Q := by
  induction elements with
  | nil => exact hP.throughout_nullLiteral
  | cons element later ih =>
    rw [List.forall_mem_cons] at h
    have hbody := hP.throughout_body (hP.throughout_children h.1)
    rw [Desugar.chain]
    split_ifs
    · exact hbody
    · exact hP.throughout_conditional (hP.throughout_expression h.1 "test") hbody (ih h.2)

lemma throughout_expansion {element : Value} {later : List Value} (h : element.Throughout P Q)
    (hlater : ∀ branch ∈ later, branch.Throughout P Q) {e : Value}
    (he : Desugar.expansion? element later = some e) : e.Throughout P Q := by
  unfold Desugar.expansion? at he
  split at he
  · obtain rfl := Option.some.inj he
    apply hP.throughout_call _ (hP.throughout_function h)
    exact hP.throughout_member (hP.throughout_expression h "of") "map"
  · obtain rfl := Option.some.inj he
    exact hP.throughout_call (hP.throughout_function h) (hP.throughout_expression h "value")
  · obtain rfl := Option.some.inj he
    exact hP.throughout_chain (List.forall_mem_cons.mpr ⟨h, hlater⟩)
  all_goals simp at he

lemma throughout_single {element : Value} {later : List Value} (h : element.Throughout P Q)
    (hlater : ∀ branch ∈ later, branch.Throughout P Q) (b : Bool) :
    (Desugar.single b element later).Throughout P Q := by
  unfold Desugar.single
  split
  · next e he =>
    have hcontainer := hP.throughout_container (hP.throughout_expansion h hlater he)
    unfold Desugar.wrap
    cases b with
    | true => exact hcontainer
    | false => exact hP.throughout_fragment (by simpa using hcontainer)
  · split_ifs
    · exact hP.throughout_bare rfl rfl
    · exact h

/-! ### Passes -/

/-- What holds throughout a value holds throughout the desugared value. -/
lemma throughout_desugar {v : Value} (h : v.Throughout P Q) (b : Bool) :
    (v.desugar b).Throughout P Q ∧ v.desugarItem.Throughout P Q := by
  induction h generalizing b with
  | scalar s => exact ⟨by rw [Value.desugar]; exact .scalar s, .scalar s⟩
  | record h => exact ⟨by rw [Value.desugar]; exact .record h, .record h⟩
  | @list items h ih =>
    refine ⟨?_, .list h⟩
    rw [Value.desugar, Value.desugarItems_eq_map]
    have hitems : ∀ item ∈ items.map Value.desugarItem, item.Throughout P Q := by
      rw [List.forall_mem_map]
      exact fun item hitem => (ih item hitem b).2
    refine .list fun r hr => ?_
    obtain ⟨item, hitem, later, hlater, rfl⟩ := Desugar.mem_items hr
    exact hP.throughout_single (hitems item hitem) (fun e he => hitems e (hlater e he).1) b
  | @node n h hfields ih =>
    have hn : (Value.node n.desugar).Throughout P Q := by
      refine .node (hP.desugar n h) ?_
      rw [Node.fields_desugar, List.forall_mem_map]
      exact fun entry hentry => (ih entry hentry _).1
    refine ⟨?_, hn⟩
    rw [Value.desugar]
    exact hP.throughout_single hn (by simp) b

end Node.Lasting

/-- What lasts and holds throughout a tree that was read holds throughout what a pass makes of it. -/
lemma Expand.throughout_of_tree_eq_ok (hP : Node.Lasting P) {asked : Topic → Bool}
    {filename : String} {json : Json} {tree tree' : Value} (hread : Value.ofJson json = .ok tree)
    (h : (Expand.tree asked filename tree).toExcept = .ok tree') (htree : tree.Throughout P Q) :
    tree'.Throughout P Q := by
  obtain ⟨root, root', rfl, hroot, rfl, -⟩ := Expand.tree_eq_ok h
  have horderly : root.Everywhere Node.Orderly := by simpa using Value.ofJson_orderly hread
  rw [root.settle_eq_desugar horderly hroot]
  exact (hP.throughout_desugar htree false).2

/-! ### Reading -/

/-- The fields of a node are what was given for them, or by default what the library makes. -/
lemma Kind.throughout_of_arrange (hP : Node.Lasting P) {kind : Kind}
    {given fields : List (String × Value)} (h : kind.arrange given = .ok fields)
    (hgiven : ∀ entry ∈ given, entry.2.Throughout P Q) :
    ∀ entry ∈ fields, entry.2.Throughout P Q := by
  have hdefault : ∀ spec ∈ kind.layout, ∀ v ∈ spec.default?, v.Throughout P Q := by
    have hopening : (Value.node ⟨.jsxOpeningFragment, [], {}⟩).Throughout P Q :=
      hP.throughout_bare rfl rfl
    have hclosing : (Value.node ⟨.jsxClosingFragment, [], {}⟩).Throughout P Q :=
      hP.throughout_bare rfl rfl
    have hempty : (Value.list []).Throughout P Q := .list (by simp)
    cases kind <;> simp [Kind.layout, FieldSpec.required, FieldSpec.optional, hopening, hclosing,
      hempty, Value.Throughout.scalar]
  intro entry hentry
  rcases (Kind.arrange_eq_ok h).2 entry hentry with ⟨name, hmem⟩ | ⟨spec, hspec, hdef⟩
  · exact hgiven (name, entry.2) hmem
  · exact hdefault spec hspec entry.2 hdef

/-- What holds of every record that is kept, and of every node that is read, holds throughout the
tree. -/
theorem Value.ofJson_throughout (hP : Node.Lasting P) (json : Json)
    (hnode : ∀ members n, json.Reaches (.record members) → Node.ReadFrom n members → P n)
    (hrecord : ∀ members, json.Reaches (.record members) → get? members "type" = none → Q members)
    {v : Value} (h : Value.ofJson json = .ok v) : v.Throughout P Q := by
  induction json using Json.conversion_induction generalizing v with
  | step json ih =>
    have hpart (part : Json) (hstep : json.Converts part) {u : Value}
        (hu : Value.ofJson part = .ok u) : u.Throughout P Q :=
      ih part hstep (fun members n hreach => hnode members n (.head hstep hreach))
        (fun members hreach => hrecord members (.head hstep hreach)) hu
    cases json with
    | scalar s =>
      obtain rfl : Value.scalar s = v := by simpa [Value.ofJson] using h
      exact .scalar s
    | list items =>
      obtain ⟨vs, hvs, rfl⟩ := Value.ofJson_list_eq_ok_iff.mp h
      refine .list fun u hu => ?_
      obtain ⟨item, hitem, hread⟩ :=
        exists_of_mem_right_of_forall₂ (Value.ofJsonItems_eq_ok_iff.mp hvs) hu
      exact hpart item (.item hitem) hread
    | record members =>
      rcases Value.ofJson_record_eq_ok_iff.mp h with ⟨htag, rfl⟩ | ⟨n, rfl, hn⟩
      · exact .record (hrecord members .refl htag)
      · obtain ⟨given, hgiven, hfields⟩ := hn.fields
        refine .node (hnode members n .refl hn) (Kind.throughout_of_arrange hP hfields ?_)
        intro field hfield
        obtain ⟨member, hmember, hname, hread⟩ := Value.exists_of_mem_given hgiven hfield
        exact hpart member.2 (hn.converts hmember hname) hread

end JsxControl
