import JsxControl.Proofs.Acceptance.Fields
import JsxControl.Proofs.Acceptance.Pass

/-!
# Markup with plain expressions

The markup whose meaning the constructs are to keep: texts, fragments, elements and expressions in
braces, where an expression is a variable, a literal or of a kind without rules of its own. A
condition `P` is put on all that stands in those expressions and in the tags of elements. Where it
is that everything stays, desugaring such markup changes nothing but the children of its nodes.
-/

namespace JsxControl

/-- An expression is not taken apart, nothing in it is markup, and `P` holds of all in it. -/
structure Node.IsPlain (P : Node → Prop) (n : Node) : Prop where
  kind : n.kind = .identifier ∨ n.kind = .literal ∨ n.kind.isOther = true
  inside : n.Everywhere fun m => (Value.node m).isJsx = false ∧ P m

/-- A value is a plain expression. -/
def Value.IsPlain (P : Node → Prop) (v : Value) : Prop := ∃ n : Node, v = .node n ∧ n.IsPlain P

/-- A node is markup with plain expressions, in which every construct is well-formed and every
branch stands where it may stand. -/
inductive Node.IsMarkup (P : Node → Prop) : Node → Prop
  | text {n : Node} (hkind : n.kind = .jsxText) : IsMarkup P n
  | container {n : Node} (hkind : n.kind = .jsxExpressionContainer)
      (hexpression : ((Value.node n).content "expression").IsPlain P) : IsMarkup P n
  | fragment {n : Node} (hkind : n.kind = .jsxFragment)
      (hplaced : BranchesFollow (Desugar.children (.node n)))
      (hchildren : ∀ m : Node, .node m ∈ Desugar.children (.node n) → IsMarkup P m) : IsMarkup P n
  | element {n : Node} (hkind : n.kind = .jsxElement) (hform : (Value.node n).WellFormed)
      (hplain : ∀ c, (Value.node n).construct? = some c → ∀ name ∈ c.attributeNames,
        (Desugar.expression (.node n) name).IsPlain P)
      (hopening : ((Value.node n).content "opening_element").Everywhere P)
      (hclosing : ((Value.node n).content "closing_element").Everywhere P)
      (hplaced : BranchesFollow (Desugar.children (.node n)))
      (hchildren : ∀ m : Node, .node m ∈ Desugar.children (.node n) → IsMarkup P m) : IsMarkup P n

/-- The content of a field is markup. -/
def Value.IsMarkup (P : Node → Prop) : Value → Prop
  | .node n => n.IsMarkup P ∧ ¬ (Value.node n).Continues
  | .list items => (∀ item ∈ items, ∃ n : Node, item = .node n ∧ n.IsMarkup P) ∧ BranchesFollow items
  | .scalar _ | .record _ => False

/-! ### What depends on the opening tag -/

/-- What an element gives depends on its opening tag only. -/
lemma Desugar.expression_congr {e e' : Value}
    (h : e'.content "opening_element" = e.content "opening_element") :
    expression e' = expression e := by
  funext name
  rw [expression, expression, attribute?, attribute?, attributes, attributes, h]

lemma Value.WellFormed.congr {e e' : Value}
    (h : e'.content "opening_element" = e.content "opening_element")
    (hconstruct : e'.construct? = e.construct?) (hform : e.WellFormed) : e'.WellFormed := by
  intro c hc
  obtain ⟨hallowed, hgiven, hbound⟩ := hform c (hconstruct ▸ hc)
  have hexpression := Desugar.expression_congr h
  refine ⟨?_, ?_, ?_⟩
  · rw [Desugar.attributes, h]
    exact hallowed
  · intro name hname
    have hname := hgiven name hname
    unfold Desugar.Given Desugar.attribute? Desugar.attributes at hname ⊢
    rwa [hexpression, h]
  · rwa [hexpression]

/-! ### What stays -/

/-- A grammatical node without fields stays, with the little that it contains. -/
lemma Node.everywhere_stays_of_empty {n : Node} (h : n.Grammatical) (hempty : n.kind.demands = [])
    (hknown : n.kind.isOther = false) (hstatement : n.kind ≠ .expressionStatement) :
    n.Everywhere Stays := by
  have hfields : n.fields = [] := by
    have hmet := h.fields hknown
    rw [hempty] at hmet
    exact List.forall₂_nil_left_iff.mp hmet
  refine everywhere_iff.mpr ⟨stays_of_kind ?_ hstatement, by simp [hfields]⟩
  intro hkind
  simp [hkind, Kind.demands] at hempty

lemma Value.IsPlain.everywhere {P : Node → Prop} {v : Value} (h : v.IsPlain P) :
    v.Everywhere P := by
  obtain ⟨n, rfl, hn⟩ := h
  rw [everywhere_node]
  exact hn.inside.imp fun _ h => h.2

namespace Node.IsMarkup

variable {n : Node}

/-- In markup in whose expressions and tags everything stays, only children do not. -/
lemma everywhere_stays (h : n.IsMarkup Stays) (hn : n.Everywhere Grammatical) {name : String}
    {v : Value} (hentry : (name, v) ∈ n.fields) (hname : name ≠ "children") :
    v.Everywhere Stays := by
  have hfound {name : String} {v : Value} (hknown : n.kind.isOther = false)
      (hentry : (name, v) ∈ n.fields) := hn.here.entry hknown hentry
  cases h with
  | text hkind =>
    obtain ⟨-, d, hd, hv⟩ := hfound (by rw [hkind]; rfl) hentry
    simp only [hkind, Kind.demands, List.mem_cons, Prod.mk.injEq, List.not_mem_nil, or_false] at hd
    rcases hd with ⟨rfl, rfl⟩ | ⟨rfl, rfl⟩
    · obtain ⟨s, rfl⟩ := hv
      simp
    · rcases hv with rfl | ⟨s, rfl⟩ <;> simp
  | container hkind hexpression =>
    obtain ⟨hcontent, d, hd, -⟩ := hfound (by rw [hkind]; rfl) hentry
    obtain ⟨rfl, -⟩ : name = "expression" ∧ _ := by simpa [hkind, Kind.demands] using hd
    rw [← hcontent]
    exact hexpression.everywhere
  | fragment hkind =>
    obtain ⟨-, d, hd, hv⟩ := hfound (by rw [hkind]; rfl) hentry
    have hempty : ∃ kind, kind.demands = [] ∧ kind.isOther = false ∧ kind ≠ .expressionStatement ∧
        v.IsNode (some [kind]) := by
      simp only [hkind, Kind.demands, List.mem_cons, Prod.mk.injEq, List.not_mem_nil, or_false,
        hname, false_and, false_or] at hd
      rcases hd with ⟨-, rfl⟩ | ⟨-, rfl⟩
      · exact ⟨_, rfl, rfl, by simp, hv⟩
      · exact ⟨_, rfl, rfl, by simp, hv⟩
    obtain ⟨kind, hdemands, hknown, hstatement, m, rfl, hm⟩ := hempty
    obtain rfl : m.kind = kind := by simpa using hm
    have hgrammar : m.Everywhere Grammatical := by simpa using hn.field hentry
    rw [Value.everywhere_node]
    exact everywhere_stays_of_empty hgrammar.here hdemands hknown hstatement
  | element hkind _ _ hopening hclosing =>
    obtain ⟨hcontent, d, hd, -⟩ := hfound (by rw [hkind]; rfl) hentry
    simp only [hkind, Kind.demands, List.mem_cons, Prod.mk.injEq, List.not_mem_nil, or_false,
      hname, false_and, false_or] at hd
    rw [← hcontent]
    rcases hd with ⟨rfl, -⟩ | ⟨rfl, -⟩
    · exact hopening
    · exact hclosing

/-- Desugaring markup changes its children only. -/
lemma content_desugar (h : n.IsMarkup Stays) (hn : n.Everywhere Grammatical) {name : String}
    (hname : name ≠ "children") :
    (Value.node n.desugar).content name = (Value.node n).content name := by
  rw [Node.content_desugar hn.here.notes]
  cases hfield : n.field name with
  | ok v =>
    have hentry := Entries.mem_of_get? ((field_eq_ok_iff hn.here.notes).mp hfield).2
    rw [Value.content_of_node_field hfield, (h.everywhere_stays hn hentry hname).desugar_eq]
  | error =>
    have hnull : (Value.node n).content name = .null := by
      simp [Value.content, hfield, Except.toOption]
    rw [hnull, Value.desugar]

lemma desugar_text (hkind : n.kind = .jsxText) (hn : n.Everywhere Grammatical) : n.desugar = n := by
  apply n.desugar_of_stays
  rw [everywhere_iff]
  refine ⟨stays_of_kind (by simp [hkind]) (by simp [hkind]), ?_⟩
  intro entry hentry
  apply everywhere_stays (.text hkind) hn hentry
  obtain ⟨-, d, hd, -⟩ := hn.here.entry (by rw [hkind]; rfl) hentry
  intro hname
  simp [hkind, hname, Kind.demands] at hd

end Node.IsMarkup

/-! ### Children -/

/-- What holds of markup as soon as it holds of its children holds of all markup. -/
lemma Node.IsMarkup.child_induction {P : Node → Prop} {motive : Node → Prop}
    (step : ∀ n : Node, n.IsMarkup P → n.Everywhere Grammatical →
      BranchesFollow (Desugar.children (.node n)) →
      (∀ m : Node, .node m ∈ Desugar.children (.node n) →
        m.IsMarkup P ∧ m.Everywhere Grammatical ∧ motive m) → motive n)
    {n : Node} (h : n.IsMarkup P) (hn : n.Everywhere Grammatical) : motive n := by
  have hchild {n m : Node} (hn : n.Everywhere Grammatical)
      (hm : .node m ∈ Desugar.children (.node n)) : m.Everywhere Grammatical := by
    obtain ⟨_, hnode, hgrammar⟩ := (children_of_grammatical hn).2 _ hm
    exact Value.node.inj hnode ▸ hgrammar
  have hleaf {n : Node} (h : n.IsMarkup P) (hn : n.Everywhere Grammatical)
      (hname : "children" ∉ n.kind.fieldNames) : motive n := by
    have hnil := children_eq_nil hn.here hname
    exact step n h hn (branchesFollow_of_not_continues (by simp [hnil])) (by simp [hnil])
  induction h with
  | text hkind =>
    exact hleaf (.text hkind) hn (by rw [hkind]; decide)
  | container hkind hexpression =>
    exact hleaf (.container hkind hexpression) hn (by rw [hkind]; decide)
  | fragment hkind hplaced hchildren ih =>
    exact step _ (.fragment hkind hplaced hchildren) hn hplaced fun m hm =>
      ⟨hchildren m hm, hchild hn hm, ih m hm (hchild hn hm)⟩
  | element hkind hform hplain hopening hclosing hplaced hchildren ih =>
    exact step _ (.element hkind hform hplain hopening hclosing hplaced hchildren) hn hplaced
      fun m hm => ⟨hchildren m hm, hchild hn hm, ih m hm (hchild hn hm)⟩

/-! ### Markup is accepted -/

lemma Value.not_continues_of_stays {v : Value} (h : ∀ n : Node, v = .node n → n.Stays) :
    ¬ v.Continues := by
  cases v with
  | node n => simp [Continues, (h n rfl).1]
  | scalar | list | record => simp [Continues]

lemma Value.fine_of_stays {v : Value} (h : v.Everywhere Node.Stays)
    (ih : ∀ m ∈ v.slotNodes, m.Fine) : v.Fine := by
  constructor
  · cases v with
    | scalar | record => exact trivial
    | node n =>
      apply not_continues_of_stays
      intro m hm
      obtain rfl := Value.node.inj hm
      exact (everywhere_node n |>.mp h).here
    | list items =>
      apply branchesFollow_of_not_continues
      intro item hitem
      apply not_continues_of_stays
      intro m hm
      exact (everywhere_list.mp h m (hm ▸ hitem)).here
  · intro m hm
    refine ⟨ih m hm, ?_⟩
    intro c hc
    rw [m.desugar_of_stays (h m hm), (h m hm).here.1] at hc
    simp at hc

/-- A tree in which everything stays is accepted. -/
lemma Node.fine_of_stays (n : Node) (h : n.Everywhere Stays) : n.Fine := by
  induction n using slot_induction with
  | step n ih =>
    rw [fine_iff]
    intro entry hentry
    have hslots := h.field hentry
    exact Value.fine_of_stays hslots fun m hm => ih m ⟨entry, hentry, hm⟩ (hslots m hm)

namespace Node.IsMarkup

variable {n : Node}

lemma isOther {P : Node → Prop} (h : n.IsMarkup P) : n.kind.isOther = false := by
  cases h <;> simp_all [Kind.isOther]

lemma isJsx {P : Node → Prop} (h : n.IsMarkup P) : (Value.node n).isJsx = true := by
  cases h with
  | text hkind | container hkind | fragment hkind | element hkind =>
    rw [Value.isJsx, Value.isMarkup, hkind]
    rfl

lemma not_guardStatement {P : Node → Prop} (h : n.IsMarkup P) :
    (Value.node n).isGuardStatement = false := by
  cases h with
  | text hkind | container hkind | fragment hkind | element hkind =>
    simp [Value.isGuardStatement, hkind]

/-- What takes the place of markup is markup. -/
lemma isJsx_single {P : Node → Prop} (h : n.IsMarkup P) (hn : n.Everywhere Grammatical) (b : Bool)
    (later : List Value) : (Desugar.single b (.node n.desugar) later).isJsx = true := by
  have hguard : (Value.node n.desugar).isGuardStatement = false := by
    rw [isGuardStatement_desugar hn.orderly, h.not_guardStatement]
  have hjsx : (Value.node n.desugar).isJsx = true := by
    have hn := h.isJsx
    rw [Value.isJsx, Value.isMarkup] at hn ⊢
    rwa [kind_desugar]
  rw [Desugar.single]
  split
  · cases b <;> rfl
  · simpa [hguard] using hjsx

lemma isJsx_of_mem_children {P : Node → Prop} (h : n.IsMarkup P) (hn : n.Everywhere Grammatical)
    {child : Value} (hchild : child ∈ Desugar.children (.node n.desugar)) : child.isJsx = true := by
  have hmarkup : ∀ m : Node, .node m ∈ Desugar.children (.node n) →
      m.IsMarkup P ∧ m.Everywhere Grammatical :=
    child_induction (motive := fun n => ∀ m : Node, .node m ∈ Desugar.children (.node n) →
      m.IsMarkup P ∧ m.Everywhere Grammatical)
      (fun _ _ _ _ ih m hm => ⟨(ih m hm).1, (ih m hm).2.1⟩) h hn
  obtain ⟨hlist, hnodes⟩ := children_of_grammatical hn
  rw [children_desugar hn.here.notes hlist] at hchild
  obtain ⟨item, hitem, later, -, rfl⟩ := Desugar.mem_items hchild
  rcases Value.mem_desugarItem hitem with ⟨hnone, hmem⟩ | ⟨m, rfl, hm⟩
  · obtain ⟨m, rfl, -⟩ := hnodes item hmem
    simp [Value.node?] at hnone
  · exact (hmarkup m hm).1.isJsx_single (hmarkup m hm).2 _ later

lemma wellFormed {P : Node → Prop} (h : n.IsMarkup P) : (Value.node n).WellFormed := by
  cases h with
  | element _ hform => exact hform
  | text hkind | container hkind | fragment hkind =>
    intro c hc
    rw [Value.construct?_of_kind (by simp [hkind])] at hc
    simp at hc

/-- Markup is accepted, and desugared it is a well-formed construct if it is one. -/
lemma accepted (h : n.IsMarkup Stays) (hn : n.Everywhere Grammatical) : n.Fine ∧ n.Sound := by
  refine child_induction (motive := fun n => n.Fine ∧ n.Sound)
    (fun n h hn hplaced ih => ⟨?_, ?_⟩) h hn
  · rw [fine_iff]
    rintro ⟨name, v⟩ hentry
    by_cases hname : name = "children"
    · subst hname
      obtain ⟨rfl, -⟩ := hn.here.list_of_children h.isOther hentry
      refine ⟨hplaced, ?_⟩
      intro m hm
      exact (ih m (Value.mem_slotNodes_list.mp hm)).2.2
    · have hslots := h.everywhere_stays hn hentry hname
      exact Value.fine_of_stays hslots fun m hm => m.fine_of_stays (hslots m hm)
  · apply h.wellFormed.congr (h.content_desugar hn (by decide))
    exact construct?_desugar hn.orderly

end Node.IsMarkup

end JsxControl
