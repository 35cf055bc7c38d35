import JsxControl.Proofs.Acceptance.Construct
import JsxControl.Proofs.Desugar.Agreement

/-!
# Desugaring keeps the grammar

A grammatical tree is desugared to a grammatical tree, if the constructs in it are well-formed. New
nodes are as any grammar has them, and nothing is replaced where only some kinds are allowed.
-/

namespace JsxControl

/-- A value is a node that has a property, with all that it contains. -/
def Value.Is (G : Node → Prop) (v : Value) : Prop := ∃ n : Node, v = .node n ∧ n.Everywhere G

/-- A value is a node that is grammatical with all that it contains. -/
abbrev Value.IsGrammatical : Value → Prop := Value.Is Node.Grammatical

section Is

variable {G : Node → Prop} {v : Value}

lemma Value.Is.isNode (h : v.Is G) : v.IsNode none := by
  obtain ⟨n, rfl, -⟩ := h
  exact ⟨n, rfl, by simp⟩

lemma Value.Is.everywhere (h : v.Is G) : v.Everywhere G := by
  obtain ⟨n, rfl, hn⟩ := h
  simpa using hn

end Is

/-! ### New nodes -/

namespace Node

/-- A grammar has all new nodes whose fields meet the demands of their kinds. -/
class Grammar (G : Node → Prop) : Prop where
  made : ∀ {kind : Kind} {fields : List (String × Value)}, kind.isOther = false →
    List.Forall₂ Demand.MetBy kind.demands fields → G ⟨kind, fields, {}⟩

instance : Grammar Grammatical := ⟨fun hknown hmet => ⟨rfl, by simp [hknown], fun _ => hmet⟩⟩

instance {J : Prop} : Grammar (Writable J) where
  made hknown hmet := by
    refine ⟨⟨rfl, by simp [hknown], fun _ => Kind.typed_of_demanded hmet⟩, ?_⟩
    rintro ⟨hother, -⟩
    simp [hknown] at hother

section New

variable {G : Node → Prop} [Grammar G] {u v w : Value}

/-- A new node of a known kind is grammatical if its fields meet the demands of the kind. -/
lemma isGrammatical_of_made {kind : Kind} {fields : List (String × Value)}
    (hknown : kind.isOther = false) (hmet : List.Forall₂ Demand.MetBy kind.demands fields)
    (hfields : ∀ entry ∈ fields, entry.2.Everywhere G) :
    (Value.node ⟨kind, fields, {}⟩).Is G :=
  ⟨_, rfl, everywhere_iff.mpr ⟨Grammar.made hknown hmet, hfields⟩⟩

lemma isGrammatical_identifier (name : String) : (Value.node (identifier name)).Is G :=
  isGrammatical_of_made rfl (.cons ⟨rfl, name, rfl⟩ .nil) (by simp)

lemma isGrammatical_nullLiteral : (Value.node nullLiteral).Is G :=
  isGrammatical_of_made rfl (.cons ⟨rfl, .null, rfl⟩ (.cons ⟨rfl, .inl rfl⟩ .nil)) (by simp)

lemma isGrammatical_member (hv : v.Is G) (name : String) : (Value.node (member v name)).Is G := by
  have hname : (Value.node (identifier name)).Is G := isGrammatical_identifier name
  refine isGrammatical_of_made rfl (.cons ⟨rfl, hv.isNode⟩ (.cons ⟨rfl, hname.isNode⟩
    (.cons ⟨rfl, _, rfl⟩ (.cons ⟨rfl, _, rfl⟩ .nil)))) ?_
  simp [hv.everywhere, hname.everywhere]

lemma isGrammatical_call (hu : u.Is G) (hv : v.Is G) : (Value.node (call u v)).Is G := by
  refine isGrammatical_of_made rfl (.cons ⟨rfl, hu.isNode⟩ (.cons ⟨rfl, _, rfl, ?_⟩
    (.cons ⟨rfl, _, rfl⟩ .nil))) ?_
  · simpa using hv.isNode
  · simp [hu.everywhere, hv.everywhere.singleton]

lemma isGrammatical_arrow (hu : u.Is G) (hv : v.Is G) : (Value.node (arrow u v)).Is G := by
  refine isGrammatical_of_made rfl (.cons ⟨rfl, _, rfl, ?_⟩ (.cons ⟨rfl, hv.isNode⟩
    (.cons ⟨rfl, _, rfl⟩ .nil))) ?_
  · simpa using hu.isNode
  · simp [hv.everywhere, hu.everywhere.singleton]

lemma isGrammatical_conditional (hu : u.Is G) (hv : v.Is G) (hw : w.Is G) :
    (Value.node (conditional u v w)).Is G := by
  refine isGrammatical_of_made rfl (.cons ⟨rfl, hu.isNode⟩ (.cons ⟨rfl, hv.isNode⟩
    (.cons ⟨rfl, hw.isNode⟩ .nil))) ?_
  simp [hu.everywhere, hv.everywhere, hw.everywhere]

lemma isGrammatical_container (hv : v.Is G) : (Value.node (container v)).Is G :=
  isGrammatical_of_made rfl (.cons ⟨rfl, hv.isNode⟩ .nil) (by simp [hv.everywhere])

lemma isGrammatical_fragment {items : List Value} (h : ∀ item ∈ items, item.Is G) :
    (Value.node (fragment items)).Is G := by
  have hstart : (Value.node ⟨.jsxOpeningFragment, [], {}⟩).Everywhere G :=
    (isGrammatical_of_made rfl .nil (by simp)).everywhere
  have hend : (Value.node ⟨.jsxClosingFragment, [], {}⟩).Everywhere G :=
    (isGrammatical_of_made rfl .nil (by simp)).everywhere
  refine isGrammatical_of_made rfl (.cons ⟨rfl, _, rfl, by simp⟩ (.cons ⟨rfl, _, rfl, ?_⟩
    (.cons ⟨rfl, _, rfl, by simp⟩ .nil))) ?_
  · exact fun item hitem => (h item hitem).isNode
  · simp only [List.forall_mem_cons]
    exact ⟨hstart, .of_items fun item hitem => (h item hitem).everywhere, hend, by simp⟩

lemma isGrammatical_emptyStatement : (Value.node emptyStatement).Is G :=
  isGrammatical_of_made rfl .nil (by simp)

end New

end Node

/-! ### Expansions -/

namespace Desugar

lemma isGrammatical_wrap {G : Node → Prop} [Node.Grammar G] {v : Value} (h : v.Is G) (b : Bool) :
    (wrap b v).Is G := by
  have hcontainer := Node.isGrammatical_container h
  cases b with
  | true => exact hcontainer
  | false => exact Node.isGrammatical_fragment (by simpa using hcontainer)

lemma isGrammatical_body {children : List Value} (h : ∀ child ∈ children, child.IsGrammatical) :
    (body children).IsGrammatical := by
  have hfragment := Node.isGrammatical_fragment h
  unfold body
  split
  · next child =>
    obtain ⟨m, rfl, hm⟩ := h child (by simp)
    split_ifs with hcontainer
    · obtain ⟨e, he, -, hgrammatical⟩ := Node.field_eq_node hm "expression" none
        (by rw [show m.kind = .jsxExpressionContainer by simp_all]; rfl)
      exact ⟨e, Value.content_of_node_field he, hgrammatical⟩
    · exact hfragment
    · exact ⟨m, rfl, hm⟩
  · exact hfragment

variable {element : Node}

lemma isGrammatical_children (h : element.Everywhere Node.Grammatical)
    (hkind : element.kind = .jsxElement) :
    (body (children (.node element))).IsGrammatical := by
  obtain ⟨items, -, hchildren, hnodes⟩ := Expand.children_eq h hkind
  rw [hchildren]
  exact isGrammatical_body hnodes

lemma isGrammatical_expression (h : element.Everywhere Node.Grammatical)
    (hkind : element.kind = .jsxElement) {name : String} (hname : name ≠ "...")
    (hgiven : Given (.node element) name) : (expression (.node element) name).IsGrammatical := by
  obtain ⟨opening, found, hread⟩ := Attributes.exists_read h hkind
  exact hread.node_of_given hname hgiven

/-- The expression of a chain of well-formed branches. -/
lemma isGrammatical_chain {elements : List Value}
    (helements : ∀ e ∈ elements,
      ∃ n : Node, e = .node n ∧ n.Everywhere Node.Grammatical ∧ e.IsBranch)
    (hforms : ∀ e ∈ elements, e.WellFormed) : (chain elements).IsGrammatical := by
  induction elements with
  | nil => exact Node.isGrammatical_nullLiteral
  | cons e later ih =>
    obtain ⟨n, rfl, hn, hconstruct⟩ := helements e (by simp)
    have hkind : n.kind = .jsxElement := by
      rcases hconstruct with h | h | h <;> exact Node.kind_of_construct? h
    have hbody := isGrammatical_children hn hkind
    rw [chain]
    split_ifs with hlast
    · exact hbody
    · have hgiven : Given (.node n) "test" := by
        rcases hconstruct with h | h | h
        · exact (hforms _ (by simp) _ h).given "test" (by simp [Construct.attributeNames])
        · exact (hforms _ (by simp) _ h).given "test" (by simp [Construct.attributeNames])
        · exact absurd h hlast
      exact Node.isGrammatical_conditional (isGrammatical_expression hn hkind (by decide) hgiven)
        hbody (ih (fun e he => helements e (by simp [he])) fun e he => hforms e (by simp [he]))

/-- The expansion of a construct that is well-formed with its branches. -/
lemma isGrammatical_expansion (h : element.Everywhere Node.Grammatical) {c : Construct}
    (hc : (Value.node element).construct? = some c) (hform : c.WellFormed (.node element))
    {later : List Value} (hlater : Branches later) (hforms : ∀ e ∈ later, e.WellFormed) {e : Value}
    (he : expansion? (.node element) later = some e) : e.IsGrammatical := by
  have hkind := Node.kind_of_construct? hc
  have hgiven (name : String) (hname : name ∈ c.attributeNames) (hplain : name ≠ "...") :
      (expression (.node element) name).IsGrammatical :=
    isGrammatical_expression h hkind hplain (hform.given name hname)
  have hbody := isGrammatical_children h hkind
  simp only [expansion?, hc] at he
  cases c with
  | loop =>
    obtain rfl := Option.some.inj he
    have hmember := Node.isGrammatical_member (hgiven "of" (by decide) (by decide)) "map"
    exact Node.isGrammatical_call hmember
      (Node.isGrammatical_arrow (hgiven "var" (by decide) (by decide)) hbody)
  | binding =>
    obtain rfl := Option.some.inj he
    exact Node.isGrammatical_call
      (Node.isGrammatical_arrow (hgiven "var" (by decide) (by decide)) hbody)
      (hgiven "value" (by decide) (by decide))
  | whenTrue =>
    obtain rfl := Option.some.inj he
    refine isGrammatical_chain ?_ ?_
    · rw [List.forall_mem_cons]
      refine ⟨⟨element, rfl, h, .inl hc⟩, ?_⟩
      intro e he
      obtain ⟨n, rfl, hn, hcont⟩ := hlater e he
      exact ⟨n, rfl, hn, .inr hcont⟩
    · rw [List.forall_mem_cons]
      exact ⟨by simpa [Value.WellFormed, hc] using hform, hforms⟩
  | otherwiseWhen | otherwise => simp at he

/-- What takes the place of a node is grammatical, if the node is well-formed with its branches. -/
lemma isGrammatical_single (h : element.Everywhere Node.Grammatical)
    (hform : (Value.node element).WellFormed) {later : List Value} (hlater : Branches later)
    (hforms : ∀ e ∈ later, e.WellFormed) (b : Bool) :
    (single b (.node element) later).IsGrammatical := by
  rw [single]
  split
  · next e he =>
    refine isGrammatical_wrap ?_ b
    cases hc : (Value.node element).construct? with
    | none => simp [expansion?, hc] at he
    | some c => exact isGrammatical_expansion h hc (hform c hc) hlater hforms he
  · split_ifs
    · exact Node.isGrammatical_emptyStatement
    · exact ⟨element, rfl, h⟩

end Desugar

/-! ### Contents of fields -/

/-- The kinds that a demand allows, if it allows only some. -/
def Demand.kinds? : Demand → Option (List Kind)
  | .node kinds? | .nodeOrNull kinds? | .nodes kinds? => kinds?
  | _ => none

/-- Where only some kinds are allowed, those that can be replaced are not among them. -/
lemma Kind.not_mem_kinds? (kind : Kind) : ∀ demand ∈ kind.demands, ∀ kinds ∈ demand.2.kinds?,
    .jsxElement ∉ kinds ∧ .expressionStatement ∉ kinds := by
  cases kind <;> simp [Kind.demands, Demand.kinds?, Kind.elementNames]

/-- What takes the place of an allowed node is allowed. -/
lemma Value.IsNode.single {kinds? : Option (List Kind)} {n : Node}
    (h : (Value.node n).IsNode kinds?)
    (hkinds : ∀ kinds ∈ kinds?, .jsxElement ∉ kinds ∧ .expressionStatement ∉ kinds) (b : Bool)
    (later : List Value) : (Desugar.single b (.node n.desugar) later).IsNode kinds? := by
  obtain ⟨_, hnode, hkind⟩ := h
  obtain rfl := Value.node.inj hnode
  cases kinds? with
  | none =>
    rcases Desugar.single_eq b (.node n.desugar) later with h | ⟨r, h, -⟩
    · exact ⟨_, h, by simp⟩
    · exact ⟨r, h, by simp⟩
  | some kinds =>
    obtain ⟨helement, hstatement⟩ := hkinds kinds rfl
    have hmem : n.kind ∈ kinds := hkind kinds rfl
    rw [Desugar.single_of_kind]
    · exact ⟨_, rfl, by simpa using hmem⟩
    · rw [Node.kind_desugar]
      exact fun h => helement (h ▸ hmem)
    · rw [Node.kind_desugar]
      exact fun h => hstatement (h ▸ hmem)

/-- Desugared content meets the demands that the content meets. -/
lemma Demand.Meets.desugar {d : Demand} {v : Value} (h : d.Meets v)
    (hkinds : ∀ kinds ∈ d.kinds?, .jsxElement ∉ kinds ∧ .expressionStatement ∉ kinds) (b : Bool) :
    d.Meets (v.desugar b) := by
  cases d with
  | scalar | text =>
    obtain ⟨s, rfl⟩ := h
    exact ⟨s, by rw [Value.desugar]⟩
  | textOrNull =>
    rcases h with rfl | ⟨s, rfl⟩
    · exact .inl (by rw [Value.desugar])
    · exact .inr ⟨s, by rw [Value.desugar]⟩
  | node kinds? =>
    obtain ⟨n, rfl, hn⟩ := h
    rw [Value.desugar]
    exact Value.IsNode.single ⟨n, rfl, hn⟩ hkinds b []
  | nodeOrNull kinds? =>
    rcases h with rfl | ⟨n, rfl, hn⟩
    · exact .inl (by rw [Value.desugar])
    · rw [Value.desugar]
      exact .inr (Value.IsNode.single ⟨n, rfl, hn⟩ hkinds b [])
  | nodes kinds? =>
    obtain ⟨items, rfl, hitems⟩ := h
    rw [Value.desugar, Value.desugarItems_eq_map]
    refine ⟨_, rfl, ?_⟩
    intro r hr
    obtain ⟨item, hitem, later, -, rfl⟩ := Desugar.mem_items hr
    rcases Value.mem_desugarItem hitem with ⟨hnone, hmem⟩ | ⟨n, rfl, hn⟩
    · obtain ⟨n, rfl, -⟩ := hitems item hmem
      simp [Value.node?] at hnone
    · exact (hitems _ hn).single hkinds b later
  | nodesOrNulls =>
    obtain ⟨items, rfl, hitems⟩ := h
    rw [Value.desugar, Value.desugarItems_eq_map]
    refine ⟨_, rfl, ?_⟩
    intro r hr
    obtain ⟨item, hitem, later, -, rfl⟩ := Desugar.mem_items hr
    rcases Value.mem_desugarItem hitem with ⟨hnone, hmem⟩ | ⟨n, rfl, hn⟩
    · rw [Desugar.single_of_not_node b hnone]
      exact hitems item hmem
    · have hnode : (Value.node n).IsNode none := (hitems _ hn).resolve_left (by simp)
      exact .inr (hnode.single (by simp) b later)

/-! ### Trees -/

/-- Desugared content is grammatical, if the nodes in its slots are, and well-formed. -/
lemma Value.grammatical_desugar {v : Value} (hslots : ∀ m ∈ v.slotNodes,
    m.desugar.Everywhere Node.Grammatical ∧ (Value.node m.desugar).WellFormed) (b : Bool) :
    (v.desugar b).Everywhere Node.Grammatical := by
  cases v with
  | scalar | record =>
    rw [Value.desugar]
    simp
  | node n =>
    obtain ⟨hn, hform⟩ := hslots n (by simp [slotNodes])
    rw [Value.desugar]
    exact (Desugar.isGrammatical_single hn hform (by simp [Branches]) (by simp) b).everywhere
  | list items =>
    rw [Value.desugar, desugarItems_eq_map, everywhere_list]
    intro r hr
    obtain ⟨item, hitem, later, hlater, hsingle⟩ := Desugar.mem_items hr
    have hnode {e : Value} (he : e ∈ items.map desugarItem) {m : Node} (hm : e = .node m) :
        m.Everywhere Node.Grammatical ∧ e.WellFormed := by
      rcases mem_desugarItem he with ⟨hnone, -⟩ | ⟨n, rfl, hn⟩
      · simp [hm, node?] at hnone
      · obtain rfl := Value.node.inj hm
        exact hslots n (by simpa using hn)
    have hbranch {e : Value} (he : e ∈ later) : ∃ m : Node, e = .node m := (hlater e he).2.eq_node
    cases item with
    | node n =>
      obtain ⟨hn, hform⟩ := hnode hitem rfl
      have hlaterBranches : Branches later := by
        intro e he
        obtain ⟨m, rfl⟩ := hbranch he
        exact ⟨m, rfl, (hnode (hlater _ he).1 rfl).1, (hlater _ he).2⟩
      have hforms : ∀ e ∈ later, e.WellFormed := by
        intro e he
        obtain ⟨m, rfl⟩ := hbranch he
        exact (hnode (hlater _ he).1 rfl).2
      have hr' := (Desugar.isGrammatical_single hn hform hlaterBranches hforms b).everywhere
      rw [← hsingle] at hr'
      simpa using hr'
    | scalar | list | record =>
      rw [Desugar.single_of_not_node b rfl] at hsingle
      simp at hsingle

/-- A grammatical tree whose constructs are well-formed is desugared to a grammatical tree. -/
lemma Node.grammatical_desugar (n : Node) (hn : n.Everywhere Grammatical)
    (hforms : ∀ m, n.Contains m → (Value.node m.desugar).WellFormed) :
    n.desugar.Everywhere Grammatical := by
  induction n using slot_induction with
  | step n ih =>
    refine everywhere_iff.mpr ⟨⟨?_, ?_, fun hknown => ?_⟩, fun entry hentry => ?_⟩
    · simpa using hn.here.notes
    · simpa using hn.here.plain
    · have hmet := hn.here.fields (by simpa using hknown)
      rw [kind_desugar, fields_desugar, List.forall₂_map_right_iff]
      refine List.Forall₂.imp ?_ ((List.forall₂_and_left _ _).mpr ⟨n.kind.not_mem_kinds?, hmet⟩)
      rintro demand entry ⟨hkinds, hname, hv⟩
      exact ⟨hname, hv.desugar hkinds _⟩
    · rw [fields_desugar] at hentry
      obtain ⟨⟨name, v⟩, hv, rfl⟩ := List.mem_map.mp hentry
      refine Value.grammatical_desugar (fun m hm => ?_) _
      have hholds : n.Holds m := ⟨_, hv, hm⟩
      refine ⟨ih m hholds (hn.field hv m hm) fun l hl => ?_, hforms m (.single hholds)⟩
      exact hforms l (.head hholds hl)

end JsxControl
