import JsxControl.Proofs.Legality.Operands
import JsxControl.Proofs.Legality.Pass

/-!
# Constructs directly in braces

What a construct gives is put in braces of its own wherever markup holds the construct. Braces and
spread attributes are markup as well, but what they hold is an operand: a construct directly in them
is left in braces within braces, and where another construct moves such an operand on, it is left in
braces there.

This is shown from the end: if after a pass no operand is in braces, then nothing that the pass has
kept was a construct directly in braces. One step goes from a node to a part of it that is kept.
-/

namespace JsxControl

/-! ### Desugared trees -/

lemma Node.proper_desugar {n : Node} (hn : n.Everywhere Grammatical) (hfine : n.Fine)
    (hsound : n.Sound) : (Value.node n.desugar).Proper := by
  rintro _ hnode
  obtain rfl := Value.node.inj hnode
  exact ⟨n.grammatical_desugar hn hfine.sound, hsound⟩

/-- If no operand is in braces in a desugared content, its slots hand on what is bare. -/
lemma Value.handsBare_of_desugar {v : Value} (hv : v.Everywhere Node.Grammatical) (hfine : v.Fine)
    {b : Bool} (h : (v.desugar b).Everywhere Node.Unbraced) :
    ∀ m ∈ v.slotNodes, (Value.node m.desugar).HandsBare := by
  have hproper (m : Node) (hm : m ∈ v.slotNodes) : (Value.node m.desugar).Proper :=
    Node.proper_desugar (hv m hm) (hfine.slots m hm).1 (hfine.slots m hm).2
  intro m hm
  cases v with
  | scalar | record => simp [slotNodes] at hm
  | node n =>
    obtain rfl : m = n := by simpa [slotNodes] using hm
    have hplaced : ¬ (Value.node m.desugar).Continues := by
      rw [Node.continues_desugar (hv m hm).orderly]
      exact hfine.placed
    have hsingle : ∀ l : Node, Desugar.single b (.node m.desugar)
        (([] : List Value).take (Desugar.taken (.node m.desugar) [])) = .node l →
        l.Everywhere Node.Unbraced := by
      intro l hl
      rw [List.take_nil] at hl
      simpa [Value.desugar, hl] using h
    exact (Desugar.handsBare_of_single (hproper m hm) hplaced hsingle).1
  | list items =>
    rw [mem_slotNodes_list] at hm
    have hnodes := everywhere_list.mp hv
    have hitems : ∀ item ∈ items.map desugarItem, item.Proper := by
      intro item hitem
      obtain ⟨v, hv, rfl⟩ := List.mem_map.mp hitem
      cases v with
      | node n => exact hproper n (mem_slotNodes_list.mpr hv)
      | scalar | list | record => simp [Proper, desugarItem]
    rw [Value.desugar, desugarItems_eq_map, everywhere_list] at h
    have hchained := chained_desugarItems (fun n hn => (hnodes n hn).orderly) hfine.placed
    exact Desugar.handsBare_of_items hchained hitems h _ (List.mem_map_of_mem hm)

/-! ### What is kept -/

/-- A node keeps a part of it in a pass: one in its slots if it stays, and of a construct a child or
the value of the attribute that counts. -/
inductive Node.Keeps (n m : Node) : Prop
  | slot (hstays : n.Stays) (hm : n.Holds m)
  | child (hn : (Value.node n).construct?.isSome) (hm : .node m ∈ Desugar.children (.node n))
  | value {c : Construct} (hc : (Value.node n).construct? = some c) {name : String}
      (hname : name ∈ c.attributeNames) {attr : Value}
      (hattr : Desugar.attribute? (.node n) name = some attr) (hm : attr.content "value" = .node m)

lemma Node.Keeps.contains {n m : Node} (h : n.Keeps m) (hn : n.Everywhere Grammatical) :
    n.Contains m := by
  cases h with
  | slot _ hm => exact .single hm
  | child hconstruct hm =>
    obtain ⟨c, hc⟩ := Option.isSome_iff_exists.mp hconstruct
    obtain ⟨first, last, hfields, -⟩ := hn.here.fields_of_parent (.inr (kind_of_construct? hc))
    exact .single ⟨("children", .list (Desugar.children (.node n))), by simp [hfields],
      by simpa using hm⟩
  | @value c hc name hname _ hattr hm =>
    have hplain : name ≠ "..." := ne_of_mem_of_not_mem hname c.spread_not_mem_attributeNames
    obtain ⟨a, rfl, hkind, ha⟩ := contains_attribute hn (kind_of_construct? hc) hplain hattr
    have hgrammar : a.Grammatical := hn.of_contains ha
    refine .tail ha ⟨("value", .node m), ?_, by simp [Value.slotNodes]⟩
    exact (hgrammar.orderly.field_eq_ok (hgrammar.field_value hkind hm)).1

/-- If a node hands on what is bare, so does every part of it that it keeps. -/
lemma Node.Keeps.handsBare {n m : Node} (h : n.Keeps m) (hn : n.Everywhere Grammatical)
    (hfine : n.Fine) (hsound : n.Sound) (hbare : (Value.node n.desugar).HandsBare) :
    (Value.node m.desugar).HandsBare := by
  have hconstruct := construct?_desugar hn.orderly
  have hm := h.contains hn
  have hmgrammar : m.Everywhere Grammatical := fun l hl => hn l (hm.to_reflTransGen.trans hl)
  cases h with
  | slot hstays hm =>
    obtain ⟨entry, hentry, hslot⟩ := hm
    have hstays' := (stays_desugar_iff hn.orderly).mpr hstays
    have hwhole := hbare.whole hstays'.1 hstays'.2 _ rfl
    have hleft : (entry.1, entry.2.desugar (Value.node n).isJsx) ∈ n.desugar.fields := by
      rw [fields_desugar]
      exact List.mem_map.mpr ⟨entry, hentry, rfl⟩
    exact Value.handsBare_of_desugar (hn.field hentry) (fine_iff.mp hfine entry hentry)
      (hwhole.field hleft) m hslot
  | child hisSome hslot =>
    obtain ⟨c, hc⟩ := Option.isSome_iff_exists.mp hisSome
    obtain ⟨first, last, hfields, -⟩ := hn.here.fields_of_parent (.inr (kind_of_construct? hc))
    have hentry : ("children", .list (Desugar.children (.node n))) ∈ n.fields := by simp [hfields]
    have hbody : (Desugar.body (Desugar.children (.node n.desugar))).Bare :=
      hbare.parts (by rwa [hconstruct]) _ (Desugar.body_mem_handed (hconstruct.trans hc))
    have hchildren := Desugar.everywhere_of_body
      (children_of_grammatical (n.grammatical_desugar hn hfine.sound)).2 hbody
    rw [children_desugar hn.here.notes (children_of_grammatical hn).1] at hchildren
    apply Value.handsBare_of_desugar (hn.field hentry) (fine_iff.mp hfine _ hentry)
    · rwa [Value.desugar, Value.desugarItems_eq_map]
    · simpa using hslot
  | @value c hc name hname _ hattr hvalue =>
    have hplain : name ≠ "..." := ne_of_mem_of_not_mem hname c.spread_not_mem_attributeNames
    have hkind := kind_of_construct? hc
    obtain ⟨a, rfl, hattribute, ha⟩ := contains_attribute hn hkind hplain hattr
    have hgrammar : a.Grammatical := hn.of_contains ha
    have hattr' := Desugar.attribute?_desugar hn hkind name
    rw [hattr, Option.map_some, Value.desugarItem] at hattr'
    -- What is left as the value of the attribute is the braces that a construct needs.
    have hleft := content_value_desugar hgrammar.notes hattribute hvalue
    have hbraces : (Desugar.single true (.node m.desugar) []).isA .jsxExpressionContainer := by
      obtain ⟨attr, hfound, hbraces, -⟩ := (hsound c (hconstruct.trans hc)).given name hname
      obtain rfl : .node a.desugar = attr := Option.some.inj (hattr'.symm.trans hfound)
      rwa [hleft] at hbraces
    have hexpression : ((Desugar.single true (.node m.desugar) []).content "expression").Bare := by
      have hgiven := hbare.parts (by simp [hconstruct, hc]) _
        (Desugar.expression_mem_handed (hconstruct.trans hc) hname)
      rwa [Desugar.expression, hattr', Option.getD_some, hleft] at hgiven
    have hplaced : ¬ (Value.node m.desugar).Continues := by
      rw [continues_desugar hmgrammar.orderly]
      exact (hfine.placed.of_contains ha) ("value", .node m)
        (hgrammar.orderly.field_eq_ok (hgrammar.field_value hattribute hvalue)).1
    exact Desugar.handsBare_of_braces (proper_desugar hmgrammar (hfine.inside hm).1
      (hfine.inside hm).2) hplaced hbraces hexpression

/-- If no operand is in braces after a pass, all that the pass keeps hands on what is bare. -/
lemma Node.handsBare_of_keeps {root n : Node} (hroot : root.Everywhere Grammatical)
    (hfine : root.Fine) (hstays : root.Stays) (h : root.desugar.Everywhere Unbraced)
    (hreach : Relation.ReflTransGen Keeps root n) :
    Relation.ReflTransGen Holds root n ∧ (Value.node n.desugar).HandsBare := by
  induction hreach with
  | refl =>
    have hstays' := (stays_desugar_iff hroot.orderly).mpr hstays
    refine ⟨.refl, ⟨by simp [hstays'.1], fun _ _ n hn => ?_⟩⟩
    rwa [← Value.node.inj hn]
  | @tail n m _ hkeeps ih =>
    obtain ⟨hreach, hbare⟩ := ih
    have hn : n.Everywhere Grammatical := fun l hl => hroot l (hreach.trans hl)
    have hinside : n.Fine ∧ n.Sound := by
      rcases Relation.reflTransGen_iff_eq_or_transGen.mp hreach with rfl | hcontains
      · have hstays' := (stays_desugar_iff hroot.orderly).mpr hstays
        exact ⟨hfine, by simp [Sound, Value.WellFormed, hstays'.1]⟩
      · exact hfine.inside hcontains
    exact ⟨hreach.trans (hkeeps.contains hn).to_reflTransGen,
      hkeeps.handsBare hn hinside.1 hinside.2 hbare⟩

/-- What takes the place of a construct in markup is in braces. -/
lemma Desugar.exists_single_eq_container {e : Value} (hconstruct : e.construct?.isSome)
    (hplaced : ¬ e.Continues) (later : List Value) :
    ∃ x, single true e later = .node (.container x) := by
  cases hx : expansion? e later with
  | none => simp [construct?_of_expansion? hplaced hx] at hconstruct
  | some x => exact ⟨x, by simp [single, hx, wrap]⟩

/-- A construct directly in braces, or in a spread attribute, leaves braces within them. -/
lemma Node.not_unbraced_of_construct {n m : Node} (hn : n.Everywhere Grammatical)
    (hkind : n.kind = .jsxExpressionContainer ∨ n.kind = .jsxSpreadAttribute) (hm : n.Holds m)
    (hplaced : n.BranchesPlaced) (hconstruct : (Value.node m).construct?.isSome) :
    ¬ n.desugar.Unbraced := by
  obtain ⟨⟨name, v⟩, hentry, hslot⟩ := id hm
  have hknown : n.kind.isOther = false := by rcases hkind with h | h <;> simp [h, Kind.isOther]
  have hjsx : (Value.node n).isJsx = true := by
    rw [Value.isJsx, Value.isMarkup]
    rcases hkind with h | h <;> rw [h] <;> rfl
  -- Both kinds have one field only, and what it holds is an operand.
  obtain ⟨-, demand, hd, hv⟩ := hn.here.entry hknown hentry
  obtain ⟨hnode, category, hcategory, hfor⟩ : v.IsNode none ∧ ∃ category ∈ Category.operands,
      Entries.get? n.kind.slots name = some (.one, category) := by
    rcases hkind with h | h
    · obtain ⟨rfl, rfl⟩ : name = "expression" ∧ demand = .node none := by
        simpa [h, Kind.demands] using hd
      exact ⟨hv, .braced, by simp [Category.operands], by rw [h]; rfl⟩
    · obtain ⟨rfl, rfl⟩ : name = "argument" ∧ demand = .node none := by
        simpa [h, Kind.demands] using hd
      exact ⟨hv, .expression, by simp [Category.operands], by rw [h]; rfl⟩
  obtain ⟨l, rfl, -⟩ := hnode
  obtain rfl : m = l := by simpa [Value.slotNodes] using hslot
  have horderly : m.Everywhere Orderly := by simpa using hn.orderly.field hentry
  obtain ⟨e, he⟩ : ∃ e, Desugar.single true (.node m.desugar) [] = .node (.container e) := by
    apply Desugar.exists_single_eq_container
    · rwa [construct?_desugar horderly]
    · rw [continues_desugar horderly]
      exact hplaced _ hentry
  have hleft : (name, .node (.container e)) ∈ n.desugar.fields := by
    rw [fields_desugar, List.mem_map]
    exact ⟨_, hentry, by rw [hjsx, Value.desugar, he]⟩
  intro hunbraced
  exact hunbraced _ hleft .one category (by rwa [kind_desugar]) hcategory (.container e)
    (by simp [Value.slotNodes]) rfl

namespace Expand

/-- A pass that comes to its end leaves an operand in braces if any construct that it has kept was
directly in braces or in a spread attribute. -/
theorem tree_doubles_braces {asked : Topic → Bool} {filename : String} {root : Node} {tree' : Value}
    (hroot : root.Everywhere Node.Grammatical)
    (h : (tree asked filename (.node root)).toExcept = .ok tree') {n m : Node}
    (hreach : Relation.ReflTransGen Node.Keeps root n)
    (hkind : n.kind = .jsxExpressionContainer ∨ n.kind = .jsxSpreadAttribute) (hm : n.Holds m)
    (hconstruct : (Value.node m).construct?.isSome) :
    ∃ root' : Node, tree' = .node root' ∧ ¬ root'.Everywhere Node.Unbraced ∧
      ∀ d, ¬ root'.Everywhere (Node.Legal d) := by
  obtain ⟨hfine, hstays⟩ := (tree_accepted_iff hroot asked filename).1.mp ⟨tree', h⟩
  obtain ⟨_, root', hnode, hsettle, rfl, -⟩ := tree_eq_ok h
  obtain rfl := Value.node.inj hnode
  obtain rfl := root.settle_eq_desugar hroot.orderly hsettle
  have hbraced : ¬ root.desugar.Everywhere Node.Unbraced := by
    intro hunbraced
    obtain ⟨hcontained, hbare⟩ := Node.handsBare_of_keeps hroot hfine hstays hunbraced hreach
    have hn : n.Everywhere Node.Grammatical := fun l hl => hroot l (hcontained.trans hl)
    have hkept : n.desugar.Stays := by
      rw [Node.stays_desugar_iff hn.orderly]
      rcases hkind with h | h <;> exact Node.stays_of_kind (by simp [h]) (by simp [h])
    exact Node.not_unbraced_of_construct hn hkind hm (hfine.placed n hcontained) hconstruct
      (hbare.whole hkept.1 hkept.2 _ rfl).here
  exact ⟨_, rfl, hbraced, fun d hlegal => hbraced (hlegal.imp fun _ h => h.unbraced)⟩

/-- The tree of `<>{<$for var={x} of={xs}>{x}</$for>}</>`. -/
def bracedLoop : Node := .fragment [.node (.container (.node loopTree))]

/-- The tree of `<>{{xs.map((x) => x)}}</>`. -/
def bracedLoopExpanded : Node :=
  .fragment [.node (.container (.node (.container (.node (.call
    (.node (.member (.node (.identifier "xs")) "map"))
    (.node (.arrow (.node (.identifier "x")) (.node (.identifier "x")))))))))]

lemma unbraced_bracedLoop : bracedLoop.Everywhere Node.Unbraced := by
  have hmade {kind : Kind} {fields : List (String × Value)} {origin : Origin} :
      (Node.mk kind fields origin).Everywhere Node.Unbraced ↔
        (Node.mk kind fields origin).Unbraced ∧
          fields.Forall fun entry => entry.2.Everywhere Node.Unbraced := by
    rw [Node.everywhere_iff, List.forall_iff_forall_mem]
  simp [bracedLoop, loopTree, elementTree, openingTree, attributeTree, nameTree, Node.fragment,
    Node.container, Node.identifier, hmade, Node.unbraced_mk, Value.everywhere_list,
    Category.operands, Kind.slots, Value.slotNodes, Entries.get?_cons, or_imp, forall_and]

/-- A loop that is directly in braces is left in two pairs of them. -/
theorem bracedLoop_doubles_braces : bracedLoop.Everywhere Node.Grammatical ∧
    bracedLoop.Everywhere Node.Unbraced ∧
    (tree (fun _ => false) "a.jsx" (.node bracedLoop)).toExcept =
      .ok (.node bracedLoopExpanded) ∧
    ∃ root' : Node, Value.node bracedLoopExpanded = .node root' ∧
      ¬ root'.Everywhere Node.Unbraced ∧ ∀ d, ¬ root'.Everywhere (Node.Legal d) := by
  have hroot : bracedLoop.Everywhere Node.Grammatical := by
    have hbraces := Node.isGrammatical_container isGrammatical_loopTree
    have hfragment : (Value.node bracedLoop).IsGrammatical :=
      Node.isGrammatical_fragment (by simpa using hbraces)
    simpa using hfragment.everywhere
  have htree : (tree (fun _ => false) "a.jsx" (.node bracedLoop)).toExcept =
      .ok (.node bracedLoopExpanded) := rfl
  have hbraces : bracedLoop.Holds (.container (.node loopTree)) :=
    ⟨("children", .list [.node (.container (.node loopTree))]),
      by simp [bracedLoop, Node.fragment], by simp⟩
  have hloop : (Node.container (.node loopTree)).Holds loopTree :=
    ⟨("expression", .node loopTree), by simp [Node.container], by simp [Value.slotNodes]⟩
  have hstays : bracedLoop.Stays :=
    Node.stays_of_kind (by simp [bracedLoop, Node.fragment]) (by simp [bracedLoop, Node.fragment])
  have hkeeps : bracedLoop.Keeps (.container (.node loopTree)) := .slot hstays hbraces
  exact ⟨hroot, unbraced_bracedLoop, htree,
    tree_doubles_braces hroot htree (.single hkeeps) (.inl rfl) hloop rfl⟩

end Expand

end JsxControl
