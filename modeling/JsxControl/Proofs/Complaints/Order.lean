import JsxControl.Proofs.Complaints.Breach

/-!
# The order in which constructs are judged

A construct is judged after everything in its slots, and what stands next to each other from left to
right. A chain is judged as a whole, after all that its branches hold, from the last branch to the
first. `Node.occurrences` lists the constructs in the slots of a node, at any depth, in this order,
each with the node that holds it and with its chain.
-/

namespace JsxControl

/-- A construct as a pass judges it: the value that holds it, the construct, and the chain that it
is judged in, from its `$if` on. A construct that is judged alone has no chain. -/
structure Occurrence where
  holder : Value
  element : Node
  chain : List Value

namespace Occurrence

/-- The breach of a construct, whose slots have been desugared when it is judged. -/
def breach? (o : Occurrence) : Option Breach :=
  (Value.node o.element.desugar).breach? !o.chain.isEmpty

/-- What is complained of in a construct. -/
def complaint? (o : Occurrence) : Option Complaint :=
  Value.complaint? o.holder (!o.chain.isEmpty) (.node o.element.desugar)

/-- A construct and the branches of its chain, if it has one. -/
def nodes (o : Occurrence) : List Node := o.element :: o.chain.filterMap Value.node?

/-- A value as a construct in a chain, if it is one. -/
def ofValue? (holder : Value) (chain : List Value) : Value → Option Occurrence
  | .node n => if (Value.node n).construct? = none then none else some ⟨holder, n, chain⟩
  | .scalar _ | .list _ | .record _ => none

/-- An item that takes some branches, and these branches, in the order in which they are judged. -/
def judged (holder item : Value) (taken : List Value) : List Occurrence :=
  (item :: taken).reverse.filterMap
    (ofValue? holder (if item.construct? = some .whenTrue then item :: taken else []))

/-- The constructs in a list whose items are paired with the constructs inside them. -/
def inItems (holder : Value) : List (Value × List Occurrence) → List Occurrence
  | [] => []
  | (item, inside) :: rest =>
    inside ++ (rest.take (Desugar.taken item (rest.map Prod.fst))).flatMap Prod.snd
      ++ judged holder item ((rest.take (Desugar.taken item (rest.map Prod.fst))).map Prod.fst)
      ++ inItems holder (rest.drop (Desugar.taken item (rest.map Prod.fst)))
termination_by list => list.length
decreasing_by
  rw [List.length_drop, List.length_cons]
  omega

end Occurrence

open Occurrence

mutual

/-- The constructs in the slots of a node, at any depth, in the order in which they are judged. -/
def Node.occurrences : Node → List Occurrence
  | ⟨kind, fields, origin⟩ => Node.occurrencesInFields (.node ⟨kind, fields, origin⟩) fields

/-- The constructs in the fields of a node. -/
def Node.occurrencesInFields (holder : Value) : List (String × Value) → List Occurrence
  | [] => []
  | (_, v) :: rest => Value.occurrences holder v ++ Node.occurrencesInFields holder rest

/-- The constructs in the content of a field. -/
def Value.occurrences (holder : Value) : Value → List Occurrence
  | .scalar _ => []
  | .record _ => []
  | .list items => inItems holder (Value.occurrencesByItem items)
  | .node n => n.occurrences ++ judged holder (.node n) []

/-- The items of a list with the constructs in the slots of each. -/
def Value.occurrencesByItem : List Value → List (Value × List Occurrence)
  | [] => []
  | .node n :: rest => (.node n, n.occurrences) :: Value.occurrencesByItem rest
  | .scalar s :: rest => (.scalar s, []) :: Value.occurrencesByItem rest
  | .record members :: rest => (.record members, []) :: Value.occurrencesByItem rest
  | .list items :: rest => (.list items, []) :: Value.occurrencesByItem rest

end

/-- All constructs in a tree, in the order in which a pass judges them. -/
def Node.settlingOrder (root : Node) : List Occurrence :=
  root.occurrences ++ judged .null (.node root) []

/-! ### Equations -/

/-- The constructs inside an item of a list. -/
def Value.inside : Value → List Occurrence
  | .node n => n.occurrences
  | .scalar _ | .list _ | .record _ => []

@[simp] lemma Value.inside_node (n : Node) : (Value.node n).inside = n.occurrences := rfl

/-- The constructs in the items of a list. -/
def Occurrence.inList (holder : Value) (items : List Value) : List Occurrence :=
  inItems holder (items.map fun item => (item, item.inside))

lemma Value.occurrencesByItem_eq_map (items : List Value) :
    occurrencesByItem items = items.map fun item => (item, item.inside) := by
  induction items with
  | nil => rfl
  | cons item rest ih =>
    cases item <;> simp [occurrencesByItem, inside, ih]

lemma Value.occurrences_list (holder : Value) (items : List Value) :
    occurrences holder (.list items) = inList holder items := by
  rw [occurrences, occurrencesByItem_eq_map, inList]

@[simp] lemma Occurrence.inList_nil (holder : Value) : inList holder [] = [] := by
  rw [inList, List.map_nil, inItems]

lemma Occurrence.inList_cons (holder item : Value) (rest : List Value) :
    inList holder (item :: rest) =
      item.inside ++ (rest.take (Desugar.taken item rest)).flatMap Value.inside
        ++ judged holder item (rest.take (Desugar.taken item rest))
        ++ inList holder (rest.drop (Desugar.taken item rest)) := by
  have hfst : (rest.map fun item => (item, item.inside)).map Prod.fst = rest := by
    simp [Function.comp_def]
  rw [inList, List.map_cons, inItems, hfst, ← List.map_take, ← List.map_drop, List.map_map,
    List.flatMap_map, ← inList]
  simp [Function.comp_def]

lemma Desugar.taken_of_not_node {item : Value} (h : item.node? = none) (rest : List Value) :
    taken item rest = 0 := by
  cases item with
  | node => simp [Value.node?] at h
  | scalar | list | record => simp [taken]

lemma Occurrence.inList_of_not_node {holder item : Value} {rest : List Value}
    (h : item.node? = none) : inList holder (item :: rest) = inList holder rest := by
  rw [inList_cons, Desugar.taken_of_not_node h]
  cases item with
  | node => simp [Value.node?] at h
  | scalar | list | record => simp [Value.inside, judged, ofValue?]

lemma Node.occurrencesInFields_eq_flatMap (holder : Value) (fields : List (String × Value)) :
    occurrencesInFields holder fields =
      fields.flatMap fun entry => Value.occurrences holder entry.2 := by
  induction fields with
  | nil => rfl
  | cons entry rest ih => rw [occurrencesInFields, ih, List.flatMap_cons]

lemma Node.occurrences_eq (n : Node) :
    n.occurrences = n.fields.flatMap fun entry => Value.occurrences (.node n) entry.2 := by
  cases n
  rw [occurrences, occurrencesInFields_eq_flatMap]

/-- Lists are gone through by an item with the branches that it takes, and then the rest. -/
lemma Desugar.taken_induction {motive : List Value → Prop} (nil : motive [])
    (cons : ∀ item rest, motive (rest.drop (taken item rest)) → motive (item :: rest))
    (items : List Value) : motive items :=
  match items with
  | [] => nil
  | item :: rest => cons item rest (taken_induction nil cons (rest.drop (taken item rest)))
termination_by items.length
decreasing_by
  rw [List.length_drop, List.length_cons]
  omega

/-! ### Members -/

namespace Occurrence

variable {holder item : Value} {taken items : List Value} {o : Occurrence} {n m : Node}

lemma ofValue?_eq_some_iff {chain : List Value} {v : Value} :
    ofValue? holder chain v = some o ↔
      v = .node o.element ∧ v.construct? ≠ none ∧ o.holder = holder ∧ o.chain = chain := by
  cases v with
  | node n =>
    obtain ⟨holder', element, chain'⟩ := o
    by_cases hc : (Value.node n).construct? = none
    · simp [ofValue?, hc]
    · simp only [ofValue?, hc, if_false, Option.some.injEq, mk.injEq, Value.node.injEq, ne_eq,
        not_false_eq_true, true_and]
      tauto
  | scalar | list | record => simp [ofValue?]

lemma mem_judged_iff : o ∈ judged holder item taken ↔
    .node o.element ∈ item :: taken ∧ (Value.node o.element).construct? ≠ none ∧
      o.holder = holder ∧
        o.chain = if item.construct? = some .whenTrue then item :: taken else [] := by
  rw [judged, List.mem_filterMap]
  constructor
  · rintro ⟨v, hv, ho⟩
    obtain ⟨rfl, hc, hholder, hchain⟩ := ofValue?_eq_some_iff.mp ho
    exact ⟨List.mem_reverse.mp hv, hc, hholder, hchain⟩
  · rintro ⟨hmem, hc, hholder, hchain⟩
    exact ⟨_, List.mem_reverse.mpr hmem, ofValue?_eq_some_iff.mpr ⟨rfl, hc, hholder, hchain⟩⟩

/-- What is judged with an item is the item or one of the branches that it takes. -/
lemma mem_of_judged (h : o ∈ judged holder item taken) (hm : m ∈ o.nodes) :
    .node m ∈ item :: taken := by
  obtain ⟨hmem, -, -, hchain⟩ := mem_judged_iff.mp h
  rcases List.mem_cons.mp hm with rfl | hm
  · exact hmem
  · obtain ⟨v, hv, hvm⟩ := List.mem_filterMap.mp hm
    rw [hchain] at hv
    split_ifs at hv with hc
    · cases v with
      | node l => exact Option.some.inj hvm ▸ hv
      | scalar | list | record => simp [Value.node?] at hvm
    · simp at hv

lemma mem_take_or_drop {v : Value} (h : v ∈ items) (k : ℕ) :
    v ∈ items.take k ∨ v ∈ items.drop k := by
  rwa [← List.mem_append, List.take_append_drop]

/-- A construct in a list stands inside an item, or it is an item, and so are those of its chain. -/
lemma of_mem_inList (h : o ∈ inList holder items) :
    (∃ item ∈ items, o ∈ item.inside) ∨
      o.holder = holder ∧ (Value.node o.element).construct? ≠ none ∧
        ∀ m ∈ o.nodes, .node m ∈ items := by
  induction items using Desugar.taken_induction with
  | nil => simp at h
  | cons item rest ih =>
    have htake {v : Value} (hv : v ∈ item :: rest.take (Desugar.taken item rest)) :
        v ∈ item :: rest :=
      List.cons_subset_cons _ (List.take_subset _ _) hv
    have hdrop {v : Value} (hv : v ∈ rest.drop (Desugar.taken item rest)) : v ∈ item :: rest :=
      List.mem_cons_of_mem _ (List.mem_of_mem_drop hv)
    rw [inList_cons, List.mem_append, List.mem_append, List.mem_append, List.mem_flatMap] at h
    rcases h with ((hinside | ⟨branch, hbranch, hinside⟩) | hjudged) | hrest
    · exact .inl ⟨item, by simp, hinside⟩
    · exact .inl ⟨branch, htake (List.mem_cons_of_mem _ hbranch), hinside⟩
    · obtain ⟨-, hc, hholder, -⟩ := mem_judged_iff.mp hjudged
      exact .inr ⟨hholder, hc, fun m hm => htake (mem_of_judged hjudged hm)⟩
    · refine (ih hrest).imp ?_ ?_
      · rintro ⟨v, hv, hinside⟩
        exact ⟨v, hdrop hv, hinside⟩
      · rintro ⟨hholder, hc, hmem⟩
        exact ⟨hholder, hc, fun m hm => hdrop (hmem m hm)⟩

/-- All that stands inside the items of a list is listed. -/
lemma inside_subset_inList (h : item ∈ items) : item.inside ⊆ inList holder items := by
  induction items using Desugar.taken_induction with
  | nil => simp at h
  | cons first rest ih =>
    rw [inList_cons]
    intro o ho
    rcases List.mem_cons.mp h with rfl | h
    · simp [ho]
    · rcases mem_take_or_drop h (Desugar.taken first rest) with h | h
      · have hbranches : o ∈ (rest.take (Desugar.taken first rest)).flatMap Value.inside :=
          List.mem_flatMap.mpr ⟨item, h, ho⟩
        simp [hbranches]
      · simp [ih h ho]

/-- All constructs among the items of a list are listed. -/
lemma exists_mem_inList (h : .node m ∈ items) (hc : (Value.node m).construct? ≠ none) :
    ∃ o ∈ inList holder items, o.element = m := by
  induction items using Desugar.taken_induction with
  | nil => simp at h
  | cons first rest ih =>
    rw [inList_cons]
    have hjudged (hm : .node m ∈ first :: rest.take (Desugar.taken first rest)) :
        ∃ o ∈ judged holder first (rest.take (Desugar.taken first rest)), o.element = m :=
      ⟨⟨holder, m, _⟩, mem_judged_iff.mpr ⟨hm, hc, rfl, rfl⟩, rfl⟩
    rcases List.mem_cons.mp h with hm | hm
    · obtain ⟨o, ho, helement⟩ := hjudged (by simp [hm])
      exact ⟨o, by simp [ho], helement⟩
    · rcases mem_take_or_drop hm (Desugar.taken first rest) with hm | hm
      · obtain ⟨o, ho, helement⟩ := hjudged (by simp [hm])
        exact ⟨o, by simp [ho], helement⟩
      · obtain ⟨o, ho, helement⟩ := ih hm
        exact ⟨o, by simp [ho], helement⟩

/-- What stands in the slots of a node is listed, with all that stands inside. -/
lemma occurrences_of_holds (h : n.Holds m) :
    m.occurrences ⊆ n.occurrences ∧
      ((Value.node m).construct? ≠ none → ∃ o ∈ n.occurrences, o.element = m) := by
  obtain ⟨entry, hentry, hm⟩ := h
  have hsubset : Value.occurrences (.node n) entry.2 ⊆ n.occurrences := by
    intro o ho
    rw [Node.occurrences_eq]
    exact List.mem_flatMap.mpr ⟨entry, hentry, ho⟩
  suffices hslot : m.occurrences ⊆ Value.occurrences (.node n) entry.2 ∧
      ((Value.node m).construct? ≠ none →
        ∃ o ∈ Value.occurrences (.node n) entry.2, o.element = m) by
    exact ⟨List.Subset.trans hslot.1 hsubset, fun hc => (hslot.2 hc).imp fun o ho =>
      ⟨hsubset ho.1, ho.2⟩⟩
  cases hv : entry.2 with
  | node l =>
    obtain rfl : m = l := by simpa [hv, Value.slotNodes] using hm
    rw [Value.occurrences]
    refine ⟨List.subset_append_left _ _, fun hc => ?_⟩
    have hjudged : ⟨.node n, m, _⟩ ∈ judged (.node n) (.node m) [] :=
      mem_judged_iff.mpr ⟨by simp, hc, rfl, rfl⟩
    exact ⟨_, List.mem_append_right _ hjudged, rfl⟩
  | list items =>
    have hmem : .node m ∈ items := by simpa [hv] using hm
    rw [Value.occurrences_list]
    exact ⟨inside_subset_inList hmem, exists_mem_inList hmem⟩
  | scalar | record => simp [hv, Value.slotNodes] at hm

/-- Every construct that a node contains is listed. -/
lemma exists_of_contains (h : n.Contains m) (hc : (Value.node m).construct? ≠ none) :
    ∃ o ∈ n.occurrences, o.element = m := by
  induction h using Relation.TransGen.head_induction_on with
  | single h => exact (occurrences_of_holds h).2 hc
  | head h _ ih => exact ih.imp fun o ho => ⟨(occurrences_of_holds h).1 ho.1, ho.2⟩

/-- A construct and the branches of its chain stand in slots of the node that it is listed with. -/
structure Held (root : Node) (o : Occurrence) (p : Node) : Prop where
  holder : o.holder = .node p
  reached : Relation.ReflTransGen Node.Holds root p
  construct : (Value.node o.element).construct? ≠ none
  slots : ∀ m ∈ o.nodes, p.Holds m

lemma held_of_mem (n : Node) (h : o ∈ n.occurrences) : ∃ p, Held n o p := by
  induction n using Node.slot_induction with
  | step n ih =>
    have hinside {m : Node} (hm : n.Holds m) (ho : o ∈ m.occurrences) : ∃ p, Held n o p := by
      obtain ⟨p, hp⟩ := ih m hm ho
      exact ⟨p, hp.holder, .head hm hp.reached, hp.construct, hp.slots⟩
    rw [Node.occurrences_eq] at h
    obtain ⟨⟨name, v⟩, hentry, ho⟩ := List.mem_flatMap.mp h
    cases v with
    | node m =>
      have hslot : n.Holds m := ⟨_, hentry, by simp [Value.slotNodes]⟩
      rw [Value.occurrences] at ho
      rcases List.mem_append.mp ho with ho | ho
      · exact hinside hslot ho
      · obtain ⟨-, hc, hholder, -⟩ := mem_judged_iff.mp ho
        refine ⟨n, hholder, .refl, hc, fun l hl => ?_⟩
        obtain rfl : l = m := by simpa using mem_of_judged ho hl
        exact hslot
    | list items =>
      rw [Value.occurrences_list] at ho
      rcases of_mem_inList ho with ⟨item, hitem, ho⟩ | ⟨hholder, hc, hmem⟩
      · cases item with
        | node m => exact hinside ⟨_, hentry, by simpa using hitem⟩ ho
        | scalar | list | record => simp [Value.inside] at ho
      · exact ⟨n, hholder, .refl, hc, fun m hm => ⟨_, hentry, by simpa using hmem m hm⟩⟩
    | scalar | record => simp [Value.occurrences] at ho

/-- A construct of a tree stands in a slot of a node of the tree, or it is the root. -/
lemma held_of_mem_settlingOrder {root : Node} (h : o ∈ root.settlingOrder) :
    (∃ p, Held root o p) ∨
      o.holder = .null ∧ (Value.node root).construct? ≠ none ∧ ∀ m ∈ o.nodes, m = root := by
  rcases List.mem_append.mp h with h | h
  · exact .inl (held_of_mem root h)
  · obtain ⟨hmem, hc, hholder, -⟩ := mem_judged_iff.mp h
    obtain helement : o.element = root := by simpa using hmem
    exact .inr ⟨hholder, helement ▸ hc, fun m hm => by simpa using mem_of_judged h hm⟩

/-- A construct and the branches of its chain are nodes of the tree. -/
lemma reached_of_mem {root : Node} (h : o ∈ root.settlingOrder) (hm : m ∈ o.nodes) :
    Relation.ReflTransGen Node.Holds root m := by
  rcases held_of_mem_settlingOrder h with ⟨p, hp⟩ | ⟨-, -, hroot⟩
  · exact hp.reached.tail (hp.slots m hm)
  · rw [hroot m hm]

/-! ### What comes first -/

/-- In front of each construct of an order stand all those in its slots and in the slots of its
chain. Some may have been listed earlier. -/
def Preceded (earlier order : List Occurrence) : Prop :=
  ∀ before o after, order = before ++ o :: after → ∀ m ∈ o.nodes, m.occurrences ⊆ earlier ++ before

lemma Preceded.mono {earlier earlier' order : List Occurrence} (h : Preceded earlier order)
    (hsubset : earlier ⊆ earlier') : Preceded earlier' order := by
  intro before o after hsplit m hm
  exact List.Subset.trans (h before o after hsplit m hm)
    (List.append_subset.mpr ⟨List.subset_append_of_subset_left _ hsubset,
      List.subset_append_right _ _⟩)

lemma Preceded.append {earlier order order' : List Occurrence} (h : Preceded earlier order)
    (h' : Preceded (earlier ++ order) order') : Preceded earlier (order ++ order') := by
  intro before o after hsplit m hm
  rcases List.append_eq_append_iff.mp hsplit with ⟨between, rfl, hsplit'⟩ | ⟨between, rfl, hsplit'⟩
  · rw [← List.append_assoc]
    exact h' between o after hsplit' m hm
  · cases between with
    | nil =>
      have := h' [] o after (by simpa using hsplit'.symm) m hm
      simpa using this
    | cons first between =>
      obtain ⟨rfl, rfl⟩ : o = first ∧ after = between ++ order' := by simpa using hsplit'
      exact h before o between rfl m hm

lemma preceded_nil (earlier : List Occurrence) : Preceded earlier [] := by
  simp [Preceded]

lemma preceded_flatMap {α : Type} {list : List α} {f : α → List Occurrence}
    (h : ∀ x ∈ list, Preceded [] (f x)) : Preceded [] (list.flatMap f) := by
  induction list with
  | nil => exact preceded_nil []
  | cons x rest ih =>
    rw [List.forall_mem_cons] at h
    rw [List.flatMap_cons]
    exact h.1.append ((ih h.2).mono (List.nil_subset _))

/-- An item is judged with its branches when all that these hold is listed. -/
lemma preceded_judged {earlier : List Occurrence} (h : ∀ v ∈ item :: taken, v.inside ⊆ earlier) :
    Preceded earlier (judged holder item taken) := by
  intro before o after hsplit m hm
  have ho : o ∈ judged holder item taken := by simp [hsplit]
  exact List.subset_append_of_subset_left _ (h _ (mem_of_judged ho hm))

lemma preceded_inList (h : ∀ v ∈ items, Preceded [] v.inside) :
    Preceded [] (inList holder items) := by
  induction items using Desugar.taken_induction with
  | nil =>
    rw [inList_nil]
    exact preceded_nil []
  | cons item rest ih =>
    rw [List.forall_mem_cons] at h
    have hbranches := preceded_flatMap fun v hv =>
      h.2 v (List.mem_of_mem_take (i := Desugar.taken item rest) hv)
    have hrest := ih fun v hv => h.2 v (List.mem_of_mem_drop hv)
    rw [inList_cons]
    refine ((h.1.append (hbranches.mono (List.nil_subset _))).append (preceded_judged ?_)).append
      (hrest.mono (List.nil_subset _))
    intro v hv o ho
    rcases List.mem_cons.mp hv with rfl | hv
    · simp [ho]
    · have hmem := List.mem_flatMap.mpr ⟨v, hv, ho⟩
      simp [hmem]

lemma preceded_occurrences (n : Node) : Preceded [] n.occurrences := by
  induction n using Node.slot_induction with
  | step n ih =>
    rw [Node.occurrences_eq]
    apply preceded_flatMap
    intro entry hentry
    cases hv : entry.2 with
    | node m =>
      rw [Value.occurrences]
      refine (ih m ⟨entry, hentry, by simp [hv, Value.slotNodes]⟩).append (preceded_judged ?_)
      simp [Value.inside]
    | list items =>
      rw [Value.occurrences_list]
      apply preceded_inList
      intro item hitem
      cases item with
      | node m => exact ih m ⟨entry, hentry, by simpa [hv] using hitem⟩
      | scalar | list | record => exact preceded_nil []
    | scalar | record => exact preceded_nil []

/-- In the order of a tree, all that stands inside a construct and its chain comes in front. -/
lemma preceded_settlingOrder (root : Node) : Preceded [] root.settlingOrder := by
  refine (preceded_occurrences root).append (preceded_judged ?_)
  simp [Value.inside]

end Occurrence

end JsxControl
