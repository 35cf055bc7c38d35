import JsxControl.Proofs.Marks.Construct

/-!
# What a pass loses

A desugared tree has the marks of the tree but for those that its constructs and its checks spend,
each once. This is shown slot by slot: what takes the places of the nodes in the slots of a field is
made of what these nodes hand on, and a node with desugared slots has what it hands on and what it
spends.
-/

namespace JsxControl

variable {μ : Type} (k : Marking μ)

/-! ### Contents of slots -/

/-- The marks of what the nodes in the slots of a content hand on. -/
def Value.shares (v : Value) : List μ :=
  match v with
  | .node m => Desugar.share k (.node m.desugar)
  | .list items => items.flatMap fun item => Desugar.share k item.desugarItem
  | .scalar _ | .record _ => []

/-- A desugared content is made of what its slots hand on. -/
lemma Value.marks_desugar {v : Value} (hv : v.Everywhere Node.Orderly) (hplaced : v.BranchesPlaced)
    (b : Bool) : (v.desugar b).marks k = v.shares k := by
  cases v with
  | scalar | record => simp [Value.desugar, shares]
  | node m =>
    have hm : ¬ (Value.node m.desugar).Continues := by
      rw [Node.continues_desugar (by simpa using hv)]
      exact hplaced
    simpa [Value.desugar, shares] using Desugar.marks_single k b hm []
  | list items =>
    have hchained := chained_desugarItems (everywhere_list.mp hv) hplaced
    rw [Value.desugar, marks_list, desugarItems_eq_map, Desugar.marks_items k b hchained,
      List.flatMap_map, shares]

lemma Node.marks_desugar {n : Node} (hn : n.Everywhere Orderly) (hplaced : n.BranchesPlaced) :
    n.desugar.marks k =
      (k.mark? n.origin).toList ++ n.fields.flatMap fun entry => entry.2.shares k := by
  rw [marks_eq, origin_desugar, fields_desugar, List.flatMap_map]
  congr 1
  apply List.flatMap_congr
  intro entry hentry
  exact Value.marks_desugar k (hn.field hentry) (hplaced entry hentry) _

/-- What takes the place of a node is the node, or it is new and the node was an element or a
statement. -/
lemma Desugar.single_eq_or_new (b : Bool) (n : Node) (later : List Value) :
    single b (.node n) later = .node n ∨ (n.kind = .jsxElement ∨ n.kind = .expressionStatement) ∧
      (single b (.node n) later).ownMark k = [] := by
  rw [single]
  split
  · next e he =>
    right
    constructor
    · cases hc : (Value.node n).construct? with
      | none => simp [expansion?, hc] at he
      | some c => exact .inl (Node.kind_of_construct? hc)
    · cases b <;> simp [wrap, Value.ownMark, Node.container, Node.fragment, k.mark?_new]
  · split_ifs with hguard
    · right
      refine ⟨.inr (Value.isGuardStatement_iff.mp hguard).1, ?_⟩
      simp [Value.ownMark, Node.emptyStatement, k.mark?_new]
    · exact .inl rfl

/-- The marks of braces. -/
lemma Value.bracesMark_desugar (v : Value) (b : Bool) :
    (if (v.desugar b).isA .jsxExpressionContainer then (v.desugar b).ownMark k else []) =
      if v.isA .jsxExpressionContainer then v.ownMark k else [] := by
  cases v with
  | node n =>
    rw [desugar]
    rcases Desugar.single_eq_or_new k b n.desugar [] with hkeep | ⟨hkind, hnew⟩
    · simp [hkeep, ownMark]
    · rw [Node.kind_desugar] at hkind
      rw [hnew, ite_self, isA_node, if_neg]
      rcases hkind with h | h <;> simp [h]
  | scalar | record | list => simp [desugar, isA]

/-! ### Attributes -/

section Attributes

variable {n : Node}

/-- Desugaring leaves the marks of the syntax of an attribute: where braces around its value are
new, they bear no mark. -/
lemma Node.attributeSyntax_desugar {a : Node} (ha : a.Everywhere Grammatical)
    (hkind : a.kind = .jsxAttribute) :
    (Value.node a.desugar).attributeSyntax k = (Value.node a).attributeSyntax k := by
  obtain ⟨i, hi, hname, -⟩ := field_eq_node ha "name" (some [.jsxIdentifier, .jsxNamespacedName])
    (by rw [hkind]; rfl)
  have hi' := field_name_desugar ha hi (by simpa using hname)
  rw [Value.attributeSyntax, Value.attributeSyntax, Value.content_of_node_field hi,
    Value.content_of_node_field hi', content_desugar ha.here.notes "value",
    Value.bracesMark_desugar, Value.ownMark, Value.ownMark, origin_desugar]

/-- The attributes of a desugared element have names of their own if those of the element do. -/
lemma Node.distinctNames_desugar (hn : n.Everywhere Grammatical) (hkind : n.kind = .jsxElement)
    (h : (Value.node n).DistinctNames) : (Value.node n.desugar).DistinctNames := by
  obtain ⟨opening, found, hread⟩ := Attributes.exists_read hn hkind
  have hnamed : ((Desugar.attributes (.node n)).map Value.desugarItem).filter
      (·.isA .jsxAttribute) =
        ((Desugar.attributes (.node n)).filter (·.isA .jsxAttribute)).map Value.desugarItem := by
    rw [List.filter_map]
    congr 1
    apply List.filter_congr
    intro attr hattr
    obtain ⟨a, rfl, -⟩ := hread.listed attr hattr
    simp [Value.desugarItem]
  rw [Value.DistinctNames] at h ⊢
  rw [Desugar.attributes_desugar hn hkind, hnamed, List.map_map]
  rwa [List.map_congr_left]
  intro attr hattr
  obtain ⟨a, rfl, -, ha⟩ := hread.listed attr (List.mem_filter.mp hattr).1
  exact attributeName_desugar ha

end Attributes

/-! ### Accepted trees -/

/-- A node of a grammatical tree whose slots are all accepted, and in which no construct gives a
name to two attributes. -/
structure Node.Accepted (n : Node) : Prop where
  grammatical : n.Everywhere Grammatical
  fine : n.Fine
  names : ∀ m, n.Contains m → (Value.node m).construct?.isSome → (Value.node m).DistinctNames

/-- An accepted node that is itself accepted in its slot. -/
structure Node.AcceptedInSlot (n : Node) : Prop extends n.Accepted where
  sound : n.Sound
  distinct : (Value.node n).construct?.isSome → (Value.node n).DistinctNames

lemma Node.Accepted.inside {n m : Node} (h : n.Accepted) (hm : n.Contains m) :
    m.AcceptedInSlot where
  grammatical l hl := h.grammatical l (hm.to_reflTransGen.trans hl)
  fine := (h.fine.inside hm).1
  names l hl := h.names l (hm.trans hl)
  sound := (h.fine.inside hm).2
  distinct := h.names m hm

lemma Node.Accepted.slot {n m : Node} (h : n.Accepted) (hm : n.Holds m) : m.AcceptedInSlot :=
  h.inside (.single hm)

namespace Node.AcceptedInSlot

variable {n : Node}

lemma desugar_grammatical (h : n.AcceptedInSlot) : n.desugar.Everywhere Grammatical :=
  n.grammatical_desugar h.grammatical h.fine.sound

lemma desugar_distinct (h : n.AcceptedInSlot)
    (hconstruct : (Value.node n.desugar).construct?.isSome) :
    (Value.node n.desugar).DistinctNames := by
  rw [construct?_desugar h.grammatical.orderly] at hconstruct
  obtain ⟨c, hc⟩ := Option.isSome_iff_exists.mp hconstruct
  exact distinctNames_desugar h.grammatical (kind_of_construct? hc) (h.distinct hconstruct)

/-- Desugared, a node has the marks that it hands on and those that it spends. -/
lemma perm_marks (h : n.AcceptedInSlot) : (n.desugar.marks k).Perm
    (Desugar.share k (.node n.desugar) ++ (Value.node n.desugar).spent k) :=
  n.desugar.perm_marks k h.desugar_grammatical h.sound h.desugar_distinct

end Node.AcceptedInSlot

/-! ### Losses -/

/-- A node in a slot hands on all marks but those that it or something in it spends. -/
lemma Node.AcceptedInSlot.loses_share {n : Node} (hn : n.AcceptedInSlot) {gone : μ → Prop}
    (h : Loses (n.marks k) (n.desugar.marks k) gone) :
    Loses (n.marks k) (Desugar.share k (.node n.desugar)) fun x =>
      gone x ∨ x ∈ (Value.node n.desugar).spent k :=
  h.trans ⟨_, hn.perm_marks k, fun _ => Iff.rfl⟩

/-- The slots of a content hand on all marks in it but those that are spent. -/
lemma Value.loses_shares {v : Value} {gone : Node → μ → Prop}
    (h : ∀ m ∈ v.slotNodes, Loses (m.marks k) (Desugar.share k (.node m.desugar)) (gone m)) :
    Loses (v.marks k) (v.shares k) fun x => ∃ m ∈ v.slotNodes, gone m x := by
  cases v with
  | scalar | record => exact (Loses.refl _).congr (by simp [slotNodes])
  | node m =>
    rw [marks_node, shares]
    exact (h m (by simp [slotNodes])).congr (by simp [slotNodes])
  | list items =>
    rw [marks_list, shares]
    have hitems : ∀ item ∈ items, Loses (item.marks k) (Desugar.share k item.desugarItem) fun x =>
        ∃ m : Node, item = .node m ∧ gone m x := by
      intro item hitem
      cases item with
      | node m => simpa [desugarItem] using h m (by simpa using hitem)
      | scalar | list | record =>
        rw [desugarItem, Desugar.share_of_not_node k rfl]
        · exact (Loses.refl _).congr (by simp)
        · simp
    refine (Loses.flatMap hitems).congr fun x => ?_
    simp only [mem_slotNodes_list]
    constructor
    · rintro ⟨_, hitem, m, rfl, hx⟩
      exact ⟨m, hitem, hx⟩
    · rintro ⟨m, hm, hx⟩
      exact ⟨_, hm, m, rfl, hx⟩

lemma Node.contains_iff {n m : Node} :
    n.Contains m ↔ ∃ entry ∈ n.fields, ∃ l ∈ entry.2.slotNodes, l.Contains m ∨ l = m := by
  rw [Contains, Relation.TransGen.head'_iff]
  constructor
  · rintro ⟨l, ⟨entry, hentry, hl⟩, hlm⟩
    refine ⟨entry, hentry, l, hl, ?_⟩
    exact (Relation.reflTransGen_iff_eq_or_transGen.mp hlm).symm.imp_right Eq.symm
  · rintro ⟨entry, hentry, l, hl, hlm⟩
    refine ⟨l, ⟨entry, hentry, hl⟩, ?_⟩
    exact Relation.reflTransGen_iff_eq_or_transGen.mpr (hlm.symm.imp_left Eq.symm)

/-- A desugared tree has the marks of the tree but for those that are spent in it. -/
theorem Node.Accepted.loses_desugar {n : Node} (hn : n.Accepted) :
    Loses (n.marks k) (n.desugar.marks k) fun x =>
      ∃ m, n.Contains m ∧ x ∈ (Value.node m.desugar).spent k := by
  induction n using slot_induction with
  | step n ih =>
    have hfields : ∀ entry ∈ n.fields, Loses (entry.2.marks k) (entry.2.shares k) fun x =>
        ∃ m ∈ entry.2.slotNodes, (∃ l, m.Contains l ∧ x ∈ (Value.node l.desugar).spent k) ∨
          x ∈ (Value.node m.desugar).spent k := by
      intro entry hentry
      apply Value.loses_shares
      intro m hm
      have hholds : n.Holds m := ⟨entry, hentry, hm⟩
      have hslot := hn.slot hholds
      exact hslot.loses_share k (ih m hholds hslot.toAccepted)
    rw [marks_eq, marks_desugar k hn.grammatical.orderly hn.fine.placed.here]
    refine ((Loses.refl _).append (Loses.flatMap hfields)).congr fun x => ?_
    rw [false_or]
    constructor
    · rintro ⟨entry, hentry, m, hm, ⟨l, hl, hx⟩ | hx⟩
      · exact ⟨l, contains_iff.mpr ⟨entry, hentry, m, hm, .inl hl⟩, hx⟩
      · exact ⟨m, contains_iff.mpr ⟨entry, hentry, m, hm, .inr rfl⟩, hx⟩
    · rintro ⟨l, hl, hx⟩
      obtain ⟨entry, hentry, m, hm, hlm | rfl⟩ := contains_iff.mp hl
      · exact ⟨entry, hentry, m, hm, .inl ⟨l, hlm, hx⟩⟩
      · exact ⟨entry, hentry, m, hm, .inr hx⟩

/-! ### What the nodes of a tree spend -/

/-- In markup, what takes the place of markup is markup, and of anything else it is not. -/
lemma Node.isJsx_single (n : Node) (later : List Value) :
    (Desugar.single true (.node n.desugar) later).isJsx = (Value.node n).isJsx := by
  have hisJsx {m : Node} {kind : Kind} (h : m.kind = kind) :
      (Value.node m).isJsx = kind.isMarkup.toOption.getD false := by
    rw [Value.isJsx, Value.isMarkup, h]
  rw [hisJsx n.kind_desugar.symm, Desugar.single]
  split
  · next e he =>
    cases hc : (Value.node n.desugar).construct? with
    | none => simp [Desugar.expansion?, hc] at he
    | some c =>
      rw [kind_of_construct? hc]
      rfl
  · split_ifs with hguard
    · rw [(Value.isGuardStatement_iff.mp hguard).1]
      rfl
    · exact hisJsx rfl

/-- What is left of an only child has the braces that the child had. -/
lemma Desugar.bodyBraces_single {m : Node} (hm : m.Everywhere Node.Grammatical) (b : Bool) :
    bodyBraces k [single b (.node m.desugar) []] = bodyBraces k [.node m] := by
  rw [bodyBraces, bodyBraces]
  rcases single_eq_or_new k b m.desugar [] with hkeep | ⟨hreplaced, hnew⟩
  · rw [hkeep]
    by_cases hkind : m.kind = .jsxExpressionContainer
    · obtain ⟨e, he, -⟩ := Node.field_eq_node hm "expression" none (by rw [hkind]; rfl)
      have hjsx : (Value.node m).isJsx = true := by
        rw [Value.isJsx, Value.isMarkup, hkind]
        rfl
      rw [Node.content_desugar hm.here.notes, Value.content_of_node_field he, hjsx,
        Value.desugar, Node.isJsx_single]
      simp [Value.ownMark]
    · simp [hkind]
  · rw [Node.kind_desugar] at hreplaced
    rw [hnew, ite_self]
    rcases hreplaced with h | h <;> simp [h]

/-- Only a new container can be what is left of several children, and it has no mark. -/
lemma Desugar.bodyBraces_items (first second : Value) (rest : List Value) (b : Bool) :
    bodyBraces k (items b (first :: second :: rest)) = [] := by
  rw [items]
  by_cases htaken : taken first (second :: rest) = 0
  · rw [htaken, List.drop_zero, items]
    rfl
  · have hopens : first.construct? = some .whenTrue := by
      by_contra h
      simp [taken, h] at htaken
    have hnew (branches : List Value) : (single b first branches).ownMark k = [] := by
      rw [single, expansion?, hopens]
      cases b <;> simp [wrap, Value.ownMark, Node.container, Node.fragment, k.mark?_new]
    unfold bodyBraces
    split
    · next hsingle =>
      obtain ⟨rfl, -⟩ := List.cons.inj hsingle
      rw [hnew, ite_self]
    · rfl

/-- Desugaring leaves the mark of the braces around a body. -/
lemma Desugar.bodyBraces_desugar {n : Node} (hn : n.Everywhere Node.Grammatical) :
    bodyBraces k (children (.node n.desugar)) = bodyBraces k (children (.node n)) := by
  obtain ⟨hlist, hnodes⟩ := Node.children_of_grammatical hn
  rw [Node.children_desugar hn.here.notes hlist]
  match children (.node n), hnodes with
  | [], _ => rw [List.map_nil, items]
  | [child], hnodes =>
    obtain ⟨m, rfl, hm⟩ := hnodes child (by simp)
    rw [List.map_cons, List.map_nil, Value.desugarItem, items, List.drop_nil, List.take_nil, items]
    exact bodyBraces_single k hm _
  | first :: second :: rest, _ =>
    rw [List.map_cons, List.map_cons, bodyBraces_items]
    rfl

namespace Node.AcceptedInSlot

variable {n : Node}

/-- The marks of the closing tag of an element are left, but for those that are spent in it. -/
lemma closing_desugar (h : n.AcceptedInSlot) (hkind : n.kind = .jsxElement) (x : μ) :
    (x ∈ ((Value.node n.desugar).content "closing_element").marks k →
      x ∈ ((Value.node n).content "closing_element").marks k) ∧
    (x ∈ ((Value.node n).content "closing_element").marks k →
      x ∈ ((Value.node n.desugar).content "closing_element").marks k ∨
        ∃ m, n.Contains m ∧ x ∈ (Value.node m.desugar).spent k) := by
  have hn := h.grammatical
  obtain ⟨v, hv, hmeets⟩ := hn.here.field "closing_element" _ (by rw [hkind]; rfl)
  rw [content_desugar hn.here.notes, Value.content_of_node_field hv]
  rcases hmeets with rfl | ⟨closing, rfl, hclosing⟩
  · simp [Value.desugar]
  · have hclosing : closing.kind = .jsxClosingElement := by simpa using hclosing
    have hholds : n.Holds closing :=
      ⟨_, (hn.here.orderly.field_eq_ok hv).1, by simp [Value.slotNodes]⟩
    have hloses := (h.slot hholds).loses_desugar k
    rw [Value.desugar, Desugar.single_of_kind (by simp [hclosing]) (by simp [hclosing]),
      Value.marks_node, Value.marks_node]
    refine ⟨fun hx => hloses.subset hx, ?_⟩
    intro hx
    refine ((hloses.mem_iff x).mp hx).imp_right ?_
    rintro ⟨m, hm, hx⟩
    exact ⟨m, .head hholds hm, hx⟩

/-- The syntax of the attributes of a construct is left. -/
lemma attributesSyntax_desugar (h : n.AcceptedInSlot) {c : Construct}
    (hc : (Value.node n).construct? = some c) :
    (Desugar.attributes (.node n.desugar)).flatMap (Value.attributeSyntax k) =
      (Desugar.attributes (.node n)).flatMap (Value.attributeSyntax k) := by
  have hkind := kind_of_construct? hc
  have hkind' : n.desugar.kind = .jsxElement := by simpa using hkind
  have hc' : (Value.node n.desugar).construct? = some c := by
    rwa [construct?_desugar h.grammatical.orderly]
  obtain ⟨opening, found, hread⟩ := Attributes.exists_read h.grammatical hkind
  have hattributes := Desugar.attributes_desugar h.grammatical hkind
  rw [hattributes, List.flatMap_map]
  apply List.flatMap_congr
  intro attr hattr
  obtain ⟨a, rfl, -, ha⟩ := hread.listed attr hattr
  have hattr' : (Value.node a).desugarItem ∈ Desugar.attributes (.node n.desugar) := by
    rw [hattributes]
    exact List.mem_map_of_mem hattr
  obtain ⟨a', hnode, -, ha', -⟩ := (h.sound c hc').attribute h.desugar_grammatical hkind'
    (h.desugar_distinct (by simp [hc'])) hattr'
  obtain rfl : a.desugar = a' := Value.node.inj hnode
  exact attributeSyntax_desugar k ha (by simpa using ha')

/-- What a node spends is spent by it, or by something in it, once the slots are desugared. -/
lemma spent_desugar (h : n.AcceptedInSlot) (x : μ) :
    (x ∈ (Value.node n.desugar).spent k → x ∈ (Value.node n).spent k) ∧
      (x ∈ (Value.node n).spent k → x ∈ (Value.node n.desugar).spent k ∨
        ∃ m, n.Contains m ∧ x ∈ (Value.node m.desugar).spent k) := by
  have hn := h.grammatical
  rw [Value.spent, Value.spent, construct?_desugar hn.orderly, isGuardStatement_desugar hn.orderly]
  cases hc : (Value.node n).construct? with
  | none =>
    cases (Value.node n).isGuardStatement with
    | false => simp
    | true =>
      have hloses := h.loses_desugar k
      simp only [Option.isSome_none, Bool.false_eq_true, if_false, if_true, Value.marks_node]
      exact ⟨fun hx => hloses.subset hx, fun hx => (hloses.mem_iff x).mp hx⟩
  | some c =>
    have hkind := kind_of_construct? hc
    obtain ⟨o, ho, hgrammar, hopening⟩ := opening_of_element hn hkind
    have hclosing := h.closing_desugar k hkind x
    have hown : (Value.node n.desugar).ownMark k = (Value.node n).ownMark k := by
      simp [Value.ownMark]
    have hownOpening : (Value.node o.desugar).ownMark k = (Value.node o).ownMark k := by
      simp [Value.ownMark]
    simp only [Option.isSome_some, if_true, Desugar.syntaxMarks, List.mem_append, hown,
      h.attributesSyntax_desugar k hc, Desugar.bodyBraces_desugar k hn,
      content_opening_desugar hn ho hopening, hownOpening, name_desugar ho hgrammar hc,
      Value.content_of_node_field ho]
    refine ⟨Or.imp_right hclosing.1, ?_⟩
    rintro (hx | hx)
    · exact .inl (.inl hx)
    · exact (hclosing.2 hx).imp_left .inr

end Node.AcceptedInSlot

/-- What is lost of a tree are the marks that the nodes in it spend. -/
theorem Node.Accepted.loses_spent {n : Node} (h : n.Accepted) :
    Loses (n.marks k) (n.desugar.marks k) fun x =>
      ∃ m, n.Contains m ∧ x ∈ (Value.node m).spent k := by
  refine (h.loses_desugar k).congr fun x => ?_
  constructor
  · rintro ⟨m, hm, hx⟩
    exact ⟨m, hm, ((h.inside hm).spent_desugar k x).1 hx⟩
  · rintro ⟨m, hm, hx⟩
    rcases ((h.inside hm).spent_desugar k x).2 hx with hx | ⟨l, hl, hx⟩
    · exact ⟨m, hm, hx⟩
    · exact ⟨l, hm.trans hl, hx⟩

end JsxControl
