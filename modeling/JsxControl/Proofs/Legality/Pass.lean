import JsxControl.Proofs.Acceptance.Pass
import JsxControl.Proofs.Desugar.Parts
import JsxControl.Proofs.Legality.Basic

/-!
# Legal trees stay legal

A pass over a legal tree that comes to its end leaves a legal tree, unless a construct was directly
the expression that markup holds. Attributes and bodies of legal elements are operands, expansions
put operands together to one operand more, and what is wrapped around it may stand where the element
stood. That the element stood there is all that is known of the place.
-/

namespace JsxControl

variable {d : Dialect}

/-- A value is an operand, and legal at every depth. -/
def Value.IsLegalOperand (d : Dialect) (v : Value) : Prop :=
  v.IsOf d.IsOperand ∧ v.Everywhere (Node.Legal d)

/-- Operands may stand wherever something is operated on. -/
lemma Value.IsLegalOperand.isOf {v : Value} (h : v.IsLegalOperand d) {category : Category}
    (hcategory : category = .expression ∨ category = .braced ∨ category = .argument ∨
      category = .functionBody) : v.IsOf (d.Allows category) := by
  obtain ⟨n, rfl, hn⟩ := h.1
  rcases hcategory with rfl | rfl | rfl | rfl
  · exact ⟨n, rfl, hn⟩
  all_goals exact ⟨n, rfl, .inl hn⟩

/-! ### New nodes -/

/-- A new node is legal if it has the fields of its kind, legal ones, and what is asked for in them.
-/
lemma Node.legal_of_made {kind : Kind} {fields : List (String × Value)}
    (hnames : Entries.names fields = kind.fieldNames)
    (hslots : ∀ entry ∈ fields, ∀ arity category,
      d.slotOf? kind entry.1 = some (arity, category) → arity.Meets (d.Allows category) entry.2)
    (hfields : ∀ entry ∈ fields, entry.2.Everywhere (Legal d)) :
    (Node.mk kind fields {}).Everywhere (Legal d) :=
  everywhere_iff.mpr ⟨⟨⟨rfl, fun _ => hnames⟩, hslots⟩, hfields⟩

section Made

variable {u v w : Value}

lemma Node.isLegalOperand_identifier (name : String) :
    (Value.node (identifier name)).IsLegalOperand d := by
  refine ⟨⟨_, rfl, .inl (by simp [identifier, Kind.expressions])⟩, ?_⟩
  rw [Value.everywhere_node]
  apply legal_of_made rfl
  · simp [Dialect.slotOf?, Kind.slots]
  · simp

lemma Node.isLegalOperand_nullLiteral : (Value.node nullLiteral).IsLegalOperand d := by
  refine ⟨⟨_, rfl, .inl (by simp [nullLiteral, Kind.expressions])⟩, ?_⟩
  rw [Value.everywhere_node]
  apply legal_of_made rfl
  · simp [Dialect.slotOf?, Kind.slots]
  · simp

lemma Node.isLegalOperand_member (hv : v.IsLegalOperand d) (name : String) :
    (Value.node (member v name)).IsLegalOperand d := by
  have hname : (Value.node (identifier name)).IsLegalOperand d := isLegalOperand_identifier name
  refine ⟨⟨_, rfl, .inl (by simp [member, Kind.expressions])⟩, ?_⟩
  rw [Value.everywhere_node]
  apply legal_of_made rfl
  · simpa [Dialect.slotOf?, Kind.slots, Entries.get?_cons, Arity.Meets] using
      ⟨hv.isOf (by simp), hname.isOf (by simp)⟩
  · simp [hv.2, hname.2]

lemma Node.isLegalOperand_call (hu : u.IsLegalOperand d) (hv : v.IsLegalOperand d) :
    (Value.node (call u v)).IsLegalOperand d := by
  refine ⟨⟨_, rfl, .inl (by simp [call, Kind.expressions])⟩, ?_⟩
  rw [Value.everywhere_node]
  apply legal_of_made rfl
  · simpa [Dialect.slotOf?, Kind.slots, Entries.get?_cons, Arity.Meets] using
      ⟨hu.isOf (by simp), hv.isOf (by simp)⟩
  · simp [hu.2, hv.2.singleton]

lemma Node.isLegalOperand_arrow (hu : u.IsLegalOperand d) (hv : v.IsLegalOperand d) :
    (Value.node (arrow u v)).IsLegalOperand d := by
  refine ⟨⟨_, rfl, .inl (by simp [arrow, Kind.expressions])⟩, ?_⟩
  rw [Value.everywhere_node]
  apply legal_of_made rfl
  · simpa [Dialect.slotOf?, Kind.slots, Entries.get?_cons, Arity.Meets] using hv.isOf (by simp)
  · simp [hv.2, hu.2.singleton]

lemma Node.isLegalOperand_conditional (hu : u.IsLegalOperand d) (hv : v.IsLegalOperand d)
    (hw : w.IsLegalOperand d) : (Value.node (conditional u v w)).IsLegalOperand d := by
  refine ⟨⟨_, rfl, .inl (by simp [conditional, Kind.expressions])⟩, ?_⟩
  rw [Value.everywhere_node]
  apply legal_of_made rfl
  · simpa [Dialect.slotOf?, Kind.slots, Entries.get?_cons, Arity.Meets] using
      ⟨hu.isOf (by simp), hv.isOf (by simp), hw.isOf (by simp)⟩
  · simp [hu.2, hv.2, hw.2]

lemma Node.legal_container (hv : v.IsLegalOperand d) :
    (container v).Everywhere (Legal d) := by
  apply legal_of_made rfl
  · simpa [Dialect.slotOf?, Kind.slots, Entries.get?_cons, Arity.Meets] using hv.isOf (by simp)
  · simp [hv.2]

lemma Node.isLegalOperand_fragment {items : List Value}
    (hitems : ∀ item ∈ items, item.IsOf (d.Allows .child))
    (h : (Value.list items).Everywhere (Legal d)) :
    (Value.node (fragment items)).IsLegalOperand d := by
  have hstart : (Node.mk .jsxOpeningFragment [] {}).Everywhere (Legal d) :=
    legal_of_made rfl (by simp) (by simp)
  have hend : (Node.mk .jsxClosingFragment [] {}).Everywhere (Legal d) :=
    legal_of_made rfl (by simp) (by simp)
  refine ⟨⟨_, rfl, .inr (.inr (.inl rfl))⟩, ?_⟩
  rw [Value.everywhere_node]
  apply legal_of_made rfl
  · simpa [Dialect.slotOf?, Kind.slots, Entries.get?_cons, Arity.Meets] using hitems
  · simp [h, hstart, hend]

lemma Node.legal_emptyStatement : emptyStatement.Everywhere (Legal d) :=
  legal_of_made rfl (by simp) (by simp)

lemma Desugar.legal_wrap (hv : v.IsLegalOperand d) (b : Bool) :
    (wrap b v).Everywhere (Node.Legal d) := by
  have hcontainer : (Value.node (.container v)).Everywhere (Node.Legal d) := by
    simpa using Node.legal_container hv
  cases b with
  | true => simpa [wrap] using hcontainer
  | false =>
    rw [wrap, if_neg (by decide)]
    refine (Node.isLegalOperand_fragment ?_ ?_).2
    · simp [Value.IsOf, Dialect.Allows, Node.container]
    · simpa [Value.everywhere_list] using hcontainer

/-- Expansions put operands together to operands. -/
lemma Desugar.kept_isLegalOperand : Kept (Value.IsLegalOperand d) where
  nullLiteral := Node.isLegalOperand_nullLiteral
  conditional := Node.isLegalOperand_conditional
  arrow := Node.isLegalOperand_arrow
  member h := Node.isLegalOperand_member h "map"
  call := Node.isLegalOperand_call

end Made

/-! ### Parts of legal elements -/

/-- What stands in the braces of legal markup is an operand, or nothing. -/
lemma Node.isLegalOperand_of_container {n : Node} (h : n.Everywhere (Legal d))
    (hkind : n.kind = .jsxExpressionContainer) {e : Value} (he : n.field "expression" = .ok e)
    (hempty : e.isA .jsxEmptyExpression = false) : e.IsLegalOperand d := by
  have hslot : d.slotOf? n.kind "expression" = some (.one, .braced) := by
    rw [hkind]
    rfl
  obtain ⟨m, rfl, hm⟩ := h.here.field he hslot
  refine ⟨⟨m, rfl, ?_⟩, h.found h.here.orderly.1 he⟩
  exact hm.resolve_right (by simpa using hempty)

/-- The expression that an attribute of a legal element gives is an operand. -/
lemma Desugar.Gives.isLegalOperand {element : Value} (h : element.Everywhere (Node.Legal d))
    {name : String} {e : Value} (he : Gives element name e) : e.IsLegalOperand d := by
  obtain ⟨c, hkind, hexpression, hempty, hc⟩ :=
    he.exists_container (fun _ hlegal => hlegal.orderly.1) h
  exact Node.isLegalOperand_of_container hc hkind hexpression hempty

/-- The body of a legal element is an operand. -/
lemma Expand.isLegalOperand_bodyOf {element : Node} (h : element.Everywhere (Node.Legal d))
    {result : Value} (hresult : bodyOf (.node element) = .ok result) :
    result.IsLegalOperand d := by
  obtain ⟨v, hv, hbody⟩ := bind_eq_ok_iff.mp hresult
  have hslot := Dialect.slotOf?_children (d := d) (h.here.orderly.field_eq_ok hv).2
  obtain ⟨items, rfl, hitems⟩ := h.here.field hv hslot
  have hlegal : (Value.list items).Everywhere (Node.Legal d) := h.found h.here.orderly.1 hv
  obtain ⟨_, hlist, hbody⟩ := exists_of_body_eq_ok hbody
  obtain rfl := Except.ok.inj hlist
  rcases hbody with ⟨-, rfl⟩ | ⟨child, rfl, hchild⟩
  · exact Node.isLegalOperand_fragment hitems hlegal
  · obtain ⟨n, rfl, hn⟩ := hitems child (by simp)
    obtain ⟨hmarkup, rfl | ⟨hcontainer, he⟩⟩ := exists_of_childExpression?_eq_some hchild
    · have hchild : (Value.node n).isMarkup = .ok true := hn.isMarkup
      simp [hchild] at hmarkup
    · refine Node.isLegalOperand_of_container ?_ (by simpa using hcontainer) he ?_
      · exact Value.everywhere_list.mp hlegal n (by simp)
      · by_contra hempty
        obtain ⟨m, rfl, hm⟩ := Value.isA_iff.mp (by simpa using hempty)
        have hempty : (Value.node m).isMarkup = .ok true := by
          rw [Value.isMarkup, hm]
          rfl
        simp [hempty] at hmarkup

lemma Node.partsHave_isLegalOperand {element : Node} (h : element.Everywhere (Legal d)) :
    (Value.node element).PartsHave (Value.IsLegalOperand d) where
  given _ _ he := he.isLegalOperand (by simpa using h)
  body _ hresult := Expand.isLegalOperand_bodyOf h hresult

/-! ### The pass -/

namespace Expand

variable {traced : Bool}

/-- What takes the place of a legal node is legal, if the branches that continue it are. -/
lemma Gives.legal {holder v : Value} {n : Node} {later : List Value} (h : Gives holder n later v)
    (hn : n.Everywhere (Node.Legal d))
    (hlater : ∀ branch ∈ later, ∃ m : Node, branch = .node m ∧ m.Everywhere (Node.Legal d)) :
    v.Everywhere (Node.Legal d) := by
  cases h with
  | expanded hc h =>
    obtain ⟨e, he, rfl⟩ := Construct.exists_of_expand_eq_ok Desugar.kept_isLegalOperand
      (Node.partsHave_isLegalOperand hn)
      (fun branch hbranch => by
        obtain ⟨m, rfl, hm⟩ := hlater branch hbranch
        exact Node.partsHave_isLegalOperand hm) h
    exact Desugar.legal_wrap he _
  | disarmed => simpa using Node.legal_emptyStatement
  | kept => simpa using hn

/-- What takes the place of a node may stand where the node stood, unless it was a construct that
markup held as its expression. -/
lemma Gives.isOf {holder n n' : Node} {later : List Value} {v : Value}
    (h : Gives (.node holder) n' later v) (hkind : n'.kind = n.kind)
    (hbraced : holder.HoldsExpression → (Value.node n').construct? = none) {name : String}
    {arity : Arity} {category : Category}
    (hslot : d.slotOf? holder.kind name = some (arity, category))
    (hn : d.Allows category n.kind) : v.IsOf (d.Allows category) := by
  obtain ⟨r, rfl, rfl | ⟨hconstruct, hr⟩ | ⟨hstatement, hr⟩⟩ := h.exists_node
  · exact ⟨r, rfl, hkind ▸ hn⟩
  · obtain ⟨c, hc⟩ := Option.isSome_iff_exists.mp hconstruct
    have helement : n.kind = .jsxElement := hkind ▸ Node.kind_of_construct? hc
    rw [helement] at hn
    refine ⟨r, rfl, ?_⟩
    rw [hr]
    split_ifs with hjsx
    · apply Dialect.Allows.container hjsx _ hslot
      intro hholds
      simp [hbraced hholds] at hc
    · exact hn.fragment
  · rw [← hkind, hstatement] at hn
    exact ⟨r, rfl, hr ▸ hn.emptyStatement⟩

end Expand

/-- A slot of a node, settled: the node in it is legal and of the kind that it was of, and it is no
construct where the holder has it as its expression. -/
structure Node.SettledLegally (d : Dialect) (holder m m' : Node) : Prop where
  legal : m'.Everywhere (Legal d)
  kind : m'.kind = m.kind
  braced : holder.HoldsExpression → (Value.node m').construct? = none

/-- An item that is left in a list of nodes that are settled legally was no node before, or it is
legal and may stand where a node of the list did. -/
lemma Expand.Settling.legal {traced : Bool} {holder : Node} {items items' : List Value}
    (h : Settling traced (.node holder) items items')
    (hnodes : ∀ m : Node, .node m ∈ items → ∀ m', (m.settle traced).toExcept = .ok m' →
      Node.SettledLegally d holder m m') {v : Value} (hv : v ∈ items') :
    (v ∈ items ∧ v.node? = none) ∨ (v.Everywhere (Node.Legal d) ∧ ∃ n : Node, .node n ∈ items ∧
      ∀ name arity category, d.slotOf? holder.kind name = some (arity, category) →
        d.Allows category n.kind → v.IsOf (d.Allows category)) := by
  rcases h.mem_right hv with hold | ⟨n, n', later, hn, hsettle, hgives, hlater⟩
  · exact .inl hold
  · have hsettled := hnodes n hn n' hsettle
    refine .inr ⟨hgives.legal hsettled.legal ?_, n, hn, ?_⟩
    · intro branch hbranch
      obtain ⟨m, m', hm, hm', rfl⟩ := hlater branch hbranch
      exact ⟨m', rfl, (hnodes m hm m' hm').legal⟩
    · intro name arity category hslot hallowed
      exact hgives.isOf hsettled.kind hsettled.braced hslot hallowed

/-- If the nodes in the slots of a content are settled legally, the content is legal afterwards, and
it still has what is asked for. -/
lemma Value.settle_legal {traced : Bool} {holder : Node} {v v' : Value}
    (hslots : ∀ m ∈ v.slotNodes, ∀ m', (m.settle traced).toExcept = .ok m' →
      Node.SettledLegally d holder m m')
    (h : (Value.settle traced (.node holder) v).toExcept = .ok v') :
    v'.Everywhere (Node.Legal d) ∧ ∀ name arity category,
      d.slotOf? holder.kind name = some (arity, category) →
        arity.Meets (d.Allows category) v → arity.Meets (d.Allows category) v' := by
  cases v with
  | scalar | record =>
    obtain rfl := by simpa [Value.settle] using h
    exact ⟨by simp, fun _ _ _ _ hmeets => hmeets⟩
  | node m =>
    obtain ⟨m', hm, hgives⟩ := Value.settle_node_eq_ok h
    have hsettled := hslots m (by simp [slotNodes]) m' hm
    refine ⟨hgives.legal hsettled.legal (by simp), ?_⟩
    intro name arity category hslot hmeets
    have hallowed : d.Allows category m.kind := hmeets.of_mem_slotNodes (by simp [slotNodes])
    exact hmeets.of_node (hgives.isOf hsettled.kind hsettled.braced hslot hallowed)
  | list items =>
    obtain ⟨items', hsettling, rfl⟩ := Value.settle_list_eq_ok h
    have hitems {item : Value} (hitem : item ∈ items') :=
      hsettling.legal (fun m hm => hslots m (by simpa using hm)) hitem
    constructor
    · rw [everywhere_list]
      intro n hn
      rcases hitems hn with ⟨-, hnone⟩ | ⟨hlegal, -⟩
      · simp [node?] at hnone
      · simpa using hlegal
    · intro name arity category hslot hmeets
      refine hmeets.of_list fun item hitem => ?_
      rcases hitems hitem with ⟨hmem, -⟩ | ⟨-, n, hn, hplaced⟩
      · exact .inl hmem
      · refine .inr (hplaced name _ category hslot ?_)
        exact hmeets.of_mem_slotNodes (Value.mem_slotNodes_list.mpr hn)

/-- When the slots of a legal node are settled, the node is legal at every depth. -/
lemma Node.settle_legal {traced : Bool} (n : Node) (hn : n.Everywhere (Legal d))
    (hbraced : n.Everywhere NoConstructBraced) {n' : Node}
    (h : (n.settle traced).toExcept = .ok n') : n'.Everywhere (Legal d) := by
  induction n using Node.slot_induction generalizing n' with
  | step n ih =>
    have horderly : n.Everywhere Orderly := hn.imp fun _ h => h.orderly
    have hslots (entry : String × Value) (hentry : entry ∈ n.fields) (m : Node)
        (hslot : m ∈ entry.2.slotNodes) (m' : Node) (hm' : (m.settle traced).toExcept = .ok m') :
        SettledLegally d n m m' := by
      have hholds : n.Holds m := ⟨entry, hentry, hslot⟩
      have hm := horderly.field hentry m hslot
      obtain rfl := m.settle_eq_desugar hm hm'
      have hlegal := ih m hholds (hn.field hentry m hslot) (hbraced.field hentry m hslot) hm'
      refine ⟨hlegal, by simp, ?_⟩
      intro hexpression
      rw [construct?_desugar hm]
      exact hbraced.here hexpression m hholds
    have hdesugar := n.settle_eq_desugar horderly h
    rw [Node.toExcept_settle] at h
    obtain ⟨fields', hfields, rfl⟩ := map_eq_ok_iff.mp h
    have hsettled := Node.settleFields_eq_ok hfields
    have hnames : Entries.names fields' = Entries.names n.fields := by
      have hfields : fields' = n.desugar.fields := by rw [← hdesugar]
      simp [hfields, fields_desugar, Entries.names]
    refine everywhere_iff.mpr ⟨⟨⟨hn.here.orderly.1, fun hknown => ?_⟩, ?_⟩, ?_⟩
    · rw [← hn.here.orderly.2 hknown]
      exact hnames
    · intro entry' hentry' arity category hslot
      obtain ⟨entry, hentry, hname, hv⟩ := exists_of_mem_right_of_forall₂ hsettled hentry'
      rw [hname] at hslot
      exact (Value.settle_legal (hslots entry hentry) hv).2 _ _ _ hslot
        (hn.here.slots entry hentry _ _ hslot)
    · intro entry' hentry'
      obtain ⟨entry, hentry, -, hv⟩ := exists_of_mem_right_of_forall₂ hsettled hentry'
      exact (Value.settle_legal (hslots entry hentry) hv).1

namespace Expand

/-- A pass that comes to its end leaves a legal tree legal, unless a construct was directly the
expression that markup holds. -/
theorem tree_legal {asked : Topic → Bool} {filename : String} {root : Node} {tree' : Value}
    (hlegal : root.Everywhere (Node.Legal d)) (hbraced : root.Everywhere Node.NoConstructBraced)
    (h : (tree asked filename (.node root)).toExcept = .ok tree') :
    ∃ root' : Node, tree' = .node root' ∧ root'.Everywhere (Node.Legal d) := by
  obtain ⟨n, n', hroot, hsettle, rfl, -⟩ := tree_eq_ok h
  obtain rfl := Value.node.inj hroot
  exact ⟨n', rfl, root.settle_legal hlegal hbraced hsettle⟩

/-- The tree of `<><$if test={a}/></>`. -/
def loneIf : Node := .fragment [.node (elementTree "$if" [("test", .node (.identifier "a"))] [])]

/-- The tree of `<>{a ? <></> : null}</>`. -/
def loneIfExpanded : Node :=
  .fragment [.node (.container (.node (.conditional (.node (.identifier "a"))
    (.node (.fragment [])) (.node .nullLiteral))))]

lemma legal_loneIf : loneIf.Everywhere (Node.Legal .known) := by
  have hname (s : String) : (nameTree s).Everywhere (Node.Legal .known) :=
    Node.legal_of_made rfl (by simp [Dialect.slotOf?, Kind.slots]) (by simp)
  have hattribute : (attributeTree ("test", .node (.identifier "a"))).Everywhere
      (Node.Legal .known) := by
    have hcontainer := Node.legal_container (d := .known) (Node.isLegalOperand_identifier "a")
    apply Node.legal_of_made rfl
    · simp [Dialect.slotOf?, Kind.slots, Entries.get?_cons, Arity.Meets, Value.IsOf,
        Dialect.Allows, Node.container]
    · simp [hname, hcontainer]
  have hopening : (openingTree "$if" [("test", .node (.identifier "a"))] true).Everywhere
      (Node.Legal .known) := by
    apply Node.legal_of_made rfl
    · simp [Dialect.slotOf?, Kind.slots]
    · simp [hname, hattribute, Value.everywhere_list]
  have helement : (elementTree "$if" [("test", .node (.identifier "a"))] []).Everywhere
      (Node.Legal .known) := by
    apply Node.legal_of_made rfl
    · simp [Dialect.slotOf?, Kind.slots, Entries.get?_cons, Arity.Meets]
    · simp [hopening, Value.everywhere_list]
  have hroot : (Value.node loneIf).IsLegalOperand .known := by
    apply Node.isLegalOperand_fragment
    · simp [Value.IsOf, Dialect.Allows, elementTree]
    · simpa [Value.everywhere_list] using helement
  simpa using hroot.2

lemma noConstructBraced_loneIf : loneIf.Everywhere Node.NoConstructBraced := by
  simp [loneIf, elementTree, openingTree, attributeTree, nameTree, Node.fragment, Node.container,
    Node.identifier, Node.everywhere_iff, Value.everywhere_list, Node.NoConstructBraced,
    Node.HoldsExpression, Kind.isOther, Node.Holds, Value.slotNodes, Value.construct?_of_kind,
    or_imp, forall_and]

theorem loneIf_legal : loneIf.Everywhere (Node.Legal .known) ∧
    loneIf.Everywhere Node.NoConstructBraced ∧
    (tree (fun _ => false) "a.jsx" (.node loneIf)).toExcept = .ok (.node loneIfExpanded) ∧
    ∃ root' : Node, Value.node loneIfExpanded = .node root' ∧
      root'.Everywhere (Node.Legal .known) := by
  have htree : (tree (fun _ => false) "a.jsx" (.node loneIf)).toExcept =
      .ok (.node loneIfExpanded) := rfl
  exact ⟨legal_loneIf, noConstructBraced_loneIf, htree,
    tree_legal legal_loneIf noConstructBraced_loneIf htree⟩

end Expand

end JsxControl
