import JsxControl.Proofs.Meaning.Preservation
import Mathlib.Algebra.FreeMonoid.Basic

/-!
# Expanding keeps the meaning

A tree that is expanded renders to what its markup means, in every semantics and in every
environment. The tags of elements and the plain expressions must hold no statement that checks for a
pseudo-element: such a statement is disarmed wherever it stands, and an expression with one inside
may then have another value.
-/

namespace JsxControl

/-- A content renders to what another means, in every semantics and every environment. -/
def Value.RendersAs (v' v : Value) : Prop :=
  ∀ (V O : Type) [Monoid O] (S : Semantics V O) (env : String → V),
    S.rendering env v' = S.meaning env v

namespace Expand

/-- Markup that is no construct itself is expanded to what renders to its meaning. -/
lemma markup_keeps_meaning {root : Node} (hmarkup : root.IsMarkup Node.Stays)
    (hroot : root.Everywhere Node.Grammatical) (hconstruct : (Value.node root).construct? = none)
    (asked : Topic → Bool) (filename : String) :
    ∃ root' : Node, (tree asked filename (.node root)).toExcept = .ok (.node root') ∧
      (Value.node root').RendersAs (.node root) := by
  have hstays : root.Stays := ⟨hconstruct, hmarkup.not_guardStatement⟩
  have hplaced : ¬ (Value.node root).Continues := by simp [Value.Continues, hconstruct]
  obtain ⟨hfine, hsound⟩ := hmarkup.accepted hroot
  rcases tree_outcome hroot asked filename with ⟨-, -, hok⟩ | ⟨-, -, -, hleaves, -⟩ | ⟨hrefused, -⟩
  · refine ⟨root.desugar, hok, ?_⟩
    intro V O _ S env
    have hdesugar : (Value.node root).desugar true = .node root.desugar := by
      rw [Value.desugar, Desugar.single_of_stays ((Node.stays_desugar_iff hroot.orderly).mpr hstays)]
    have hcontent : (Value.node root).IsMarkup Node.Stays := ⟨hmarkup, hplaced⟩
    rw [← hdesugar]
    exact S.rendering_desugar env hcontent (by simpa using hroot) true
  · exact absurd hstays hleaves
  · exact absurd ⟨hfine, hsound, hplaced⟩ hrefused

/-- Markup with plain expressions keeps its meaning. If it is a tree of its own and no construct, it
is expanded to what renders to its meaning. If it fills a field somewhere in a tree that is
expanded, where nothing takes the place of a node around it, then what the field holds afterwards
does. -/
theorem tree_keeps_meaning {root : Node} (hroot : root.Everywhere Node.Orderly)
    (asked : Topic → Bool) (filename : String) :
    (root.IsMarkup Node.Stays → root.Everywhere Node.Grammatical →
      (Value.node root).construct? = none →
      ∃ root' : Node, (tree asked filename (.node root)).toExcept = .ok (.node root') ∧
        (Value.node root').RendersAs (.node root)) ∧
    ∀ tree', (tree asked filename (.node root)).toExcept = .ok tree' →
      tree' = .node root.desugar ∧
        ∀ n, Relation.ReflTransGen (fun n m => Node.Holds n m ∧ m.Stays) root n →
          Relation.ReflTransGen Node.Holds root.desugar n.desugar ∧
            List.Forall₂ (fun entry entry' => entry'.1 = entry.1 ∧
              (entry.2.IsMarkup Node.Stays → entry.2.Everywhere Node.Grammatical →
                entry'.2.RendersAs entry.2)) n.fields n.desugar.fields := by
  constructor
  · intro hmarkup hgrammar hconstruct
    exact markup_keeps_meaning hmarkup hgrammar hconstruct asked filename
  · intro tree' h
    obtain ⟨_, root', hnode, hsettle, rfl, -⟩ := tree_eq_ok h
    obtain rfl := Value.node.inj hnode
    obtain rfl := root.settle_eq_desugar hroot hsettle
    refine ⟨rfl, fun n hn => ⟨Node.reach_desugar hroot hn, ?_⟩⟩
    rw [Node.fields_desugar, List.forall₂_map_right_iff, List.forall₂_same]
    refine fun entry hentry => ⟨rfl, fun hmarkup hgrammar V O _ S env => ?_⟩
    exact S.rendering_desugar env hmarkup hgrammar _

lemma isPlain_identifier (name : String) :
    (Value.node (.identifier name)).IsPlain Node.Stays := by
  refine ⟨_, rfl, .inl rfl, Node.everywhere_iff.mpr ⟨⟨rfl, ?_⟩, ?_⟩⟩
  · exact Node.stays_of_kind (by simp [Node.identifier]) (by simp [Node.identifier])
  · simp [Node.identifier]

lemma everywhere_stays_openingTree (name : String) {given : List (String × Value)}
    (hgiven : ∀ attr ∈ given, attr.2.IsPlain Node.Stays) (selfClosing : Bool) :
    (Value.node (openingTree name given selfClosing)).Everywhere Node.Stays := by
  have hmade {kind : Kind} {fields : List (String × Value)} (helement : kind ≠ .jsxElement)
      (hstatement : kind ≠ .expressionStatement)
      (hfields : ∀ entry ∈ fields, entry.2.Everywhere Node.Stays) :
      (Value.node ⟨kind, fields, {}⟩).Everywhere Node.Stays :=
    (Value.everywhere_node _).mpr
      (Node.everywhere_iff.mpr ⟨Node.stays_of_kind helement hstatement, hfields⟩)
  have hname (s : String) : (Value.node (nameTree s)).Everywhere Node.Stays :=
    hmade (by simp) (by simp) (by simp)
  have hattribute (attr : String × Value) (hattr : attr ∈ given) :
      (Value.node (attributeTree attr)).Everywhere Node.Stays := by
    have hvalue : (Value.node (.container attr.2)).Everywhere Node.Stays :=
      hmade (by simp) (by simp) (by simpa using (hgiven attr hattr).everywhere)
    apply hmade (by simp) (by simp)
    rw [List.forall_mem_cons, List.forall_mem_singleton]
    exact ⟨hname attr.1, hvalue⟩
  apply hmade (by simp) (by simp)
  rw [List.forall_mem_cons, List.forall_mem_cons, List.forall_mem_singleton]
  refine ⟨hname name, ?_, by simp⟩
  rw [Value.everywhere_list]
  intro n hn
  obtain ⟨attr, hattr, hnode⟩ := List.mem_map.mp hn
  exact (Value.everywhere_node n).mp (hnode ▸ hattribute attr hattr)

lemma wellFormed_loopTree : Construct.loop.WellFormed (.node loopTree) := by
  refine ⟨fun attr hattr => ?_, fun name hname => ?_, fun _ => rfl⟩
  · have hattributes : Desugar.attributes (.node loopTree) =
        [.node (attributeTree ("var", .node (.identifier "x"))),
          .node (attributeTree ("of", .node (.identifier "xs")))] := rfl
    rw [hattributes, List.mem_cons, List.mem_singleton] at hattr
    rcases hattr with rfl | rfl
    · exact ⟨"var", by decide, rfl⟩
    · exact ⟨"of", by decide, rfl⟩
  · rw [Construct.attributeNames, List.mem_cons, List.mem_singleton] at hname
    rcases hname with rfl | rfl
    · exact ⟨_, rfl, rfl, rfl⟩
    · exact ⟨_, rfl, rfl, rfl⟩

lemma isMarkup_loopTree : loopTree.IsMarkup Node.Stays := by
  have hconstruct {c : Construct} (hc : (Value.node loopTree).construct? = some c) : c = .loop :=
    Option.some.inj (hc.symm.trans rfl)
  refine .element rfl (fun c hc => ?_) (fun c hc name hname => ?_) ?_ ?_ ?_ fun m hm => ?_
  · obtain rfl := hconstruct hc
    exact wellFormed_loopTree
  · obtain rfl := hconstruct hc
    rw [Construct.attributeNames, List.mem_cons, List.mem_singleton] at hname
    rcases hname with rfl | rfl
    · exact isPlain_identifier "x"
    · exact isPlain_identifier "xs"
  · refine everywhere_stays_openingTree "$for" (fun attr hattr => ?_) false
    rw [List.mem_cons, List.mem_singleton] at hattr
    rcases hattr with rfl | rfl
    · exact isPlain_identifier "x"
    · exact isPlain_identifier "xs"
  · exact Value.everywhere_scalar .null
  · apply branchesFollow_of_not_continues
    intro item hitem
    obtain rfl := List.mem_singleton.mp hitem
    simp [Value.Continues, Value.construct?_of_kind, Node.container]
  · obtain rfl : m = _ := Value.node.inj (List.mem_singleton.mp hm)
    exact .container rfl (isPlain_identifier "x")

/-- The statement that returns an expression. -/
def returned (argument : Value) : Node := ⟨.returnStatement, [("argument", argument)], {}⟩

/-- The tree of `<>{xs.map((x) => x)}</>`. -/
def loopExpanded : Value :=
  .node (.fragment [.node (.container (.node (.call (.node (.member (.node (.identifier "xs")) "map"))
    (.node (.arrow (.node (.identifier "x")) (.node (.identifier "x")))))))])

theorem loop_keeps_meaning :
    ((Node.fragment [.node loopTree]).Everywhere Node.Orderly ∧
      ∃ root' : Node,
        (tree (fun _ => false) "a.jsx" (.node (.fragment [.node loopTree]))).toExcept =
          .ok (.node root') ∧ (Value.node root').RendersAs (.node (.fragment [.node loopTree]))) ∧
    ((returned (.node loopTree)).Everywhere Node.Orderly ∧
      (tree (fun _ => false) "a.jsx" (.node (returned (.node loopTree)))).toExcept =
        .ok (.node (returned loopExpanded)) ∧ loopExpanded.RendersAs (.node loopTree)) := by
  have hloop := isGrammatical_loopTree
  have hplaced : ¬ (Value.node loopTree).Continues := by
    have hconstruct : (Value.node loopTree).construct? = some .loop := rfl
    simp [Value.Continues, hconstruct]
  constructor
  · have hgrammar : (Node.fragment [.node loopTree]).Everywhere Node.Grammatical := by
      simpa using (Node.isGrammatical_fragment (List.forall_mem_singleton.mpr hloop)).everywhere
    have hmarkup : (Node.fragment [.node loopTree]).IsMarkup Node.Stays := by
      refine .fragment rfl (branchesFollow_of_not_continues fun item hitem => ?_) fun m hm => ?_
      · exact List.mem_singleton.mp hitem ▸ hplaced
      · exact Value.node.inj (List.mem_singleton.mp hm) ▸ isMarkup_loopTree
    refine ⟨hgrammar.orderly, ?_⟩
    exact (tree_keeps_meaning hgrammar.orderly (fun _ => false) "a.jsx").1 hmarkup hgrammar rfl
  · have hgrammar : (returned (.node loopTree)).Everywhere Node.Grammatical := by
      have hmade : (Value.node (returned (.node loopTree))).IsGrammatical :=
        Node.isGrammatical_of_made rfl (.cons ⟨rfl, .inr hloop.isNode⟩ .nil)
          (by simpa using hloop.everywhere)
      simpa using hmade.everywhere
    have htree : (tree (fun _ => false) "a.jsx" (.node (returned (.node loopTree)))).toExcept =
      .ok (.node (returned loopExpanded)) := rfl
    obtain ⟨hdesugar, hfields⟩ :=
      (tree_keeps_meaning hgrammar.orderly (fun _ => false) "a.jsx").2 _ htree
    have hargument := (hfields _ .refl).2
    rw [← Value.node.inj hdesugar] at hargument
    refine ⟨hgrammar.orderly, htree, ?_⟩
    obtain ⟨⟨-, hrenders⟩, -⟩ := List.forall₂_cons.mp hargument
    exact hrenders ⟨isMarkup_loopTree, hplaced⟩ hloop.everywhere

/-! ### An expression that checks -/

/-- Values and markup are words; an expression has the value that `plain` gives it, and an element
renders to what its children render to. -/
def wordSemantics (plain : Node → (String → FreeMonoid String) → FreeMonoid String) :
    Semantics (FreeMonoid String) (FreeMonoid String) where
  null := 1
  markup words := words
  list vs := vs.prod
  render words := words
  items words := words.toList.map FreeMonoid.of
  isTrue words := !words.toList.isEmpty
  plain := plain
  text n := FreeMonoid.of (Value.node n).identifierName
  element _ _ _ inner := inner
  render_null := rfl
  render_markup _ := rfl
  render_list vs := by rw [List.map_id']

/-- The literal `"$if"`. -/
def ifLiteral : Node := ⟨.literal, [("value", .text "$if"), ("raw", .null)], {}⟩

/-- The statement `_missingMdxReference("$if")`. -/
def guardStatement : Node :=
  ⟨.expressionStatement,
    [("expression", .node (.call (.node (.identifier guardFunction)) (.node ifLiteral)))], {}⟩

/-- The tree of a fragment with an expression in braces that runs a statement. -/
def runInBraces (statement : Node) : Node :=
  .fragment [.node (.container
    (.node ⟨.other (.text "DoExpression"), [("body", .node statement)], {}⟩))]

lemma isGrammatical_guardStatement : (Value.node guardStatement).IsGrammatical := by
  have hliteral : (Value.node ifLiteral).IsGrammatical :=
    Node.isGrammatical_of_made rfl (.cons ⟨rfl, _, rfl⟩ (.cons ⟨rfl, .inl rfl⟩ .nil)) (by simp)
  have hcall := Node.isGrammatical_call (Node.isGrammatical_identifier guardFunction) hliteral
  exact Node.isGrammatical_of_made rfl (.cons ⟨rfl, hcall.isNode⟩ .nil) (by simp [hcall.everywhere])

lemma isGrammatical_runInBraces {statement : Node}
    (h : (Value.node statement).IsGrammatical) : (Value.node (runInBraces statement)).IsGrammatical := by
  have hexpression : (Value.node
      ⟨.other (.text "DoExpression"), [("body", .node statement)], {}⟩).IsGrammatical := by
    refine ⟨_, rfl, Node.everywhere_iff.mpr ⟨⟨rfl, fun _ => rfl, by simp [Kind.isOther]⟩, ?_⟩⟩
    simpa using h.everywhere
  exact Node.isGrammatical_fragment (by simpa using Node.isGrammatical_container hexpression)

/-- What a check is made of is no markup. -/
lemma isPlain_runInBraces :
    (Value.node ⟨.other (.text "DoExpression"), [("body", .node guardStatement)], {}⟩).IsPlain
      fun n => (Value.node n).construct? = none := by
  have hfunction : (Node.identifier guardFunction).Everywhere fun n =>
      (Value.node n).isJsx = false ∧ (Value.node n).construct? = none :=
    Node.everywhere_iff.mpr ⟨⟨rfl, rfl⟩, by simp [Node.identifier]⟩
  have hliteral : ifLiteral.Everywhere fun n =>
      (Value.node n).isJsx = false ∧ (Value.node n).construct? = none :=
    Node.everywhere_iff.mpr ⟨⟨rfl, rfl⟩, by simp [ifLiteral]⟩
  have hcall : (Node.call (.node (.identifier guardFunction)) (.node ifLiteral)).Everywhere fun n =>
      (Value.node n).isJsx = false ∧ (Value.node n).construct? = none :=
    Node.everywhere_iff.mpr ⟨⟨rfl, rfl⟩, by
      simp [Node.call, Value.everywhere_list, hfunction, hliteral]⟩
  have hstatement : guardStatement.Everywhere fun n =>
      (Value.node n).isJsx = false ∧ (Value.node n).construct? = none :=
    Node.everywhere_iff.mpr ⟨⟨rfl, rfl⟩, by simp [guardStatement, hcall]⟩
  refine ⟨_, rfl, .inr (.inr rfl), Node.everywhere_iff.mpr ⟨⟨rfl, rfl⟩, ?_⟩⟩
  simpa using hstatement

/-- A check inside of a plain expression is disarmed like any other, so a semantics in which such an
expression depends on its statements can tell the trees apart. -/
theorem guard_loses_meaning :
    (runInBraces guardStatement).IsMarkup (fun n => (Value.node n).construct? = none) ∧
      (runInBraces guardStatement).Everywhere Node.Grammatical ∧
      (Value.node (runInBraces guardStatement)).construct? = none ∧
      (tree (fun _ => false) "a.mdx" (.node (runInBraces guardStatement))).toExcept =
        .ok (.node (runInBraces .emptyStatement)) ∧
      ¬ (Value.node (runInBraces .emptyStatement)).RendersAs
        (.node (runInBraces guardStatement)) := by
  refine ⟨?_, ?_, rfl, rfl, fun h => ?_⟩
  · refine .fragment rfl (branchesFollow_of_not_continues fun item hitem => ?_) fun m hm => ?_
    · obtain rfl := List.mem_singleton.mp hitem
      simp [Value.Continues, Value.construct?_of_kind, Node.container]
    · obtain rfl : m = _ := Value.node.inj (List.mem_singleton.mp hm)
      exact .container rfl isPlain_runInBraces
  · simpa using (isGrammatical_runInBraces isGrammatical_guardStatement).everywhere
  · have hwords := h _ _ (wordSemantics fun n _ =>
      if n.fields.any (·.2.isGuardStatement) then FreeMonoid.of "checked" else 1) fun _ => 1
    have hlists : ([] : List String) = ["checked"] := hwords
    simp at hlists

end Expand

end JsxControl
