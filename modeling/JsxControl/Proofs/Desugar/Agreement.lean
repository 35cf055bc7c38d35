import JsxControl.Proofs.Desugar.Expansion
import JsxControl.Proofs.Orderly
import JsxControl.Proofs.Pass

/-!
# A pass is desugaring

A pass that comes to its end leaves the desugared tree. The pass looks for the run behind a `$if`
among items whose slots are not settled yet, and desugaring among those that it has treated; the
two find the same run, since nothing that bears a tag name is ever replaced.
-/

namespace JsxControl

/-! ### Desugared fields -/

lemma Node.desugarFields_eq_map (b : Bool) (fields : List (String × Value)) :
    Node.desugarFields b fields = fields.map fun entry => (entry.1, entry.2.desugar b) := by
  induction fields with
  | nil => rw [Node.desugarFields, List.map_nil]
  | cons entry rest ih =>
    obtain ⟨name, v⟩ := entry
    rw [Node.desugarFields, ih, List.map_cons]

lemma Node.desugar_eq (n : Node) : n.desugar =
    ⟨n.kind, n.fields.map fun entry => (entry.1, entry.2.desugar (Value.node n).isJsx), n.origin⟩ := by
  cases n
  rw [Node.desugar, Node.desugarFields_eq_map]
  rfl

@[simp] lemma Node.kind_desugar (n : Node) : n.desugar.kind = n.kind := by
  rw [Node.desugar_eq]

@[simp] lemma Node.origin_desugar (n : Node) : n.desugar.origin = n.origin := by
  rw [Node.desugar_eq]

lemma Node.fields_desugar (n : Node) : n.desugar.fields =
    n.fields.map fun entry => (entry.1, entry.2.desugar (Value.node n).isJsx) := by
  rw [Node.desugar_eq]

/-- A field of a desugared node is the desugared field. -/
lemma Node.field_desugar {n : Node} (hn : n.origin.notes = []) (name : String) :
    n.desugar.field name = (·.desugar (Value.node n).isJsx) <$> n.field name := by
  unfold Node.field Origin.note?
  rw [Node.kind_desugar, Node.origin_desugar, Node.fields_desugar, Entries.get?_map, hn]
  cases n.kind.isOther <;> cases Entries.get? n.fields name <;> simp

/-- The content of a field of a desugared node is the desugared content. -/
lemma Node.content_desugar {n : Node} (hn : n.origin.notes = []) (name : String) :
    (Value.node n.desugar).content name =
      ((Value.node n).content name).desugar (Value.node n).isJsx := by
  rw [Value.content, Value.content, Value.field_node, Value.field_node, Node.field_desugar hn]
  cases n.field name with
  | ok v => rfl
  | error => simp [Except.toOption, Value.desugar]

/-! ### What is never replaced -/

namespace Desugar

/-- What takes the place of a node is the node itself, or one of three kinds that the pass makes. -/
lemma single_eq (b : Bool) (element : Value) (later : List Value) :
    single b element later = element ∨ ∃ r : Node, single b element later = .node r ∧
      (r.kind = .jsxExpressionContainer ∨ r.kind = .jsxFragment ∨ r.kind = .emptyStatement) ∧
      "name" ∉ Entries.names r.fields ∧ r.origin.notes = [] := by
  rw [single]
  split
  · right
    cases b
    · exact ⟨_, rfl, .inr (.inl rfl), by simp [Entries.names, Node.fragment], rfl⟩
    · exact ⟨_, rfl, .inl rfl, by simp [Entries.names, Node.container], rfl⟩
  · split_ifs
    · exact .inr ⟨_, rfl, .inr (.inr rfl), by simp [Entries.names, Node.emptyStatement], rfl⟩
    · exact .inl rfl

/-- Only elements and statements are ever replaced. -/
lemma single_of_kind {n : Node} (helement : n.kind ≠ .jsxElement)
    (hstatement : n.kind ≠ .expressionStatement) (b : Bool) (later : List Value) :
    single b (.node n) later = .node n := by
  have hconstruct : (Value.node n).construct? = none := Value.construct?_of_kind helement
  simp [single, expansion?, hconstruct, Value.isGuardStatement, Value.isA, hstatement]

end Desugar

lemma Desugar.single_of_not_node (b : Bool) {v : Value} (h : v.node? = none) (later : List Value) :
    single b v later = v := by
  cases v with
  | node => simp [Value.node?] at h
  | scalar | list | record => rfl

lemma Value.tagName_eq_text_iff {n : Node} {s : String} :
    (Value.node n).tagName = .ok (.text s) ↔ n.kind = .jsxElement ∧ ∃ o i : Node,
      n.field "opening_element" = .ok (.node o) ∧ o.field "name" = .ok (.node i) ∧
        i.kind = .jsxIdentifier ∧ i.field "name" = .ok (.text s) := by
  constructor
  · intro h
    rw [tagName] at h
    by_cases hkind : n.kind = .jsxElement
    · obtain ⟨u, hu, v, hv, h⟩ : ∃ u, n.field "opening_element" = .ok u ∧ ∃ v,
          u.field "name" = .ok v ∧ _ := by
        simpa only [isA_node, hkind, decide_true, if_true, field_node, bind_eq_ok_iff] using h
      cases u with
      | node o =>
        cases v with
        | node i =>
          by_cases hi : i.kind = .jsxIdentifier
          · exact ⟨hkind, o, i, hu, hv, hi, by simpa [hi] using h⟩
          · simp [hi] at h
        | scalar | list | record => simp [isA] at h
      | scalar | list | record => simp [field] at hv
    · simp [hkind] at h
  · rintro ⟨hkind, o, i, ho, hi, hident, hname⟩
    simp [tagName, hkind, ho, hi, hident, hname]

/-- A node that has a name is not replaced. -/
lemma Node.Orderly.single_of_field_name {n : Node} (hn : n.Orderly) {v : Value}
    (h : n.field "name" = .ok v) (b : Bool) (later : List Value) :
    Desugar.single b (.node n.desugar) later = .node n.desugar := by
  have hname := (hn.field_eq_ok h).2
  apply Desugar.single_of_kind <;> rw [Node.kind_desugar] <;> intro hkind <;>
    simp [hkind, Kind.fieldNames, Kind.layout, FieldSpec.required, FieldSpec.optional] at hname

/-- A node with a name in a desugared content was there before. -/
lemma Value.node_of_desugar_eq {v : Value} {b : Bool} {r : Node} (h : v.desugar b = .node r)
    {u : Value} (hname : r.field "name" = .ok u) : ∃ n, v = .node n ∧ r = n.desugar := by
  cases v with
  | node n =>
    rw [Value.desugar] at h
    rcases Desugar.single_eq b (.node n.desugar) [] with hkeep | ⟨r', hr', -, hfields, hnotes⟩
    · exact ⟨n, rfl, Value.node.inj (h.symm.trans hkeep)⟩
    · obtain rfl : r = r' := Value.node.inj (h.symm.trans hr')
      obtain ⟨-, hget⟩ := (Node.field_eq_ok_iff hnotes).mp hname
      exact absurd (List.mem_map.mpr ⟨_, Entries.mem_of_get? hget, rfl⟩) hfields
  | scalar | list | record => simp [Value.desugar] at h

lemma Value.eq_text_of_desugar {v : Value} {b : Bool} {s : String}
    (h : v.desugar b = .text s) : v = .text s := by
  cases v with
  | node n =>
    rw [Value.desugar] at h
    rcases Desugar.single_eq b (.node n.desugar) [] with hkeep | ⟨r, hr, -⟩
    · simp [hkeep] at h
    · simp [hr] at h
  | scalar s' => simpa [Value.desugar] using h
  | list | record => simp [Value.desugar] at h

/-- Desugaring the slots of a node leaves its tag name. -/
lemma Node.tagName_desugar {n : Node} (hn : n.Everywhere Node.Orderly) {s : String} :
    (Value.node n.desugar).tagName = .ok (.text s) ↔ (Value.node n).tagName = .ok (.text s) := by
  have horderly {m : Node} (hm : m.Everywhere Node.Orderly) {name : String} {o : Node}
      (h : m.field name = .ok (.node o)) : o.Everywhere Node.Orderly := by
    simpa using hm.found hm.here.1 h
  simp only [Value.tagName_eq_text_iff, Node.kind_desugar, Node.field_desugar hn.here.1,
    map_eq_ok_iff]
  refine and_congr_right fun _ => ⟨?_, ?_⟩
  · rintro ⟨o', i', ⟨u, hu, ho'⟩, hi', hident, hname⟩
    obtain ⟨o, rfl, rfl⟩ := Value.node_of_desugar_eq ho' hi'
    have ho := horderly hn hu
    obtain ⟨w, hw, hi''⟩ := map_eq_ok_iff.mp (Node.field_desugar ho.here.1 "name" ▸ hi')
    obtain ⟨i, rfl, rfl⟩ := Value.node_of_desugar_eq hi'' hname
    have hi := horderly ho hw
    obtain ⟨t, ht, htext⟩ := map_eq_ok_iff.mp (Node.field_desugar hi.here.1 "name" ▸ hname)
    obtain rfl := Value.eq_text_of_desugar htext
    exact ⟨o, i, hu, hw, by simpa using hident, ht⟩
  · rintro ⟨o, i, ho, hi, hident, hname⟩
    have horderlyO := horderly hn ho
    have horderlyI := horderly horderlyO hi
    refine ⟨o.desugar, i.desugar, ⟨_, ho, ?_⟩, ?_, by simpa using hident, ?_⟩
    · rw [Value.desugar, horderlyO.here.single_of_field_name hi]
    · rw [Node.field_desugar horderlyO.here.1, hi, map_ok, Value.desugar,
        horderlyI.here.single_of_field_name hname]
    · rw [Node.field_desugar horderlyI.here.1, hname, map_ok, Value.desugar]

lemma Node.construct?_desugar {n : Node} (hn : n.Everywhere Node.Orderly) :
    (Value.node n.desugar).construct? = (Value.node n).construct? := by
  apply Option.ext
  intro c
  rw [Value.construct?_eq_some_iff, Value.construct?_eq_some_iff, Node.tagName_desugar hn]

/-! ### Runs -/

lemma Node.continues_desugar {n : Node} (hn : n.Everywhere Node.Orderly) :
    (Value.node n.desugar).Continues ↔ (Value.node n).Continues := by
  unfold Value.Continues
  rw [construct?_desugar hn]

/-- The items of a run continue a chain. -/
lemma Desugar.continues_of_mem_run {items : List Value} :
    ∀ e ∈ items.take (run items), e.Continues := by
  induction items with
  | nil => simp
  | cons item rest ih =>
    rw [run]
    split
    · next h => simpa [Value.Continues, h] using ih
    · next h => simp [Value.Continues, h]
    · simp

lemma Desugar.continues_of_mem_taken {v : Value} {rest : List Value} :
    ∀ e ∈ rest.take (taken v rest), e.Continues := by
  rw [taken]
  split_ifs
  · exact continues_of_mem_run
  · simp

/-- An item of a list with its slots desugared. -/
def Value.desugarItem : Value → Value
  | .node n => .node n.desugar
  | v => v

lemma Value.desugarItems_eq_map (items : List Value) :
    Value.desugarItems items = items.map Value.desugarItem := by
  induction items with
  | nil => rw [Value.desugarItems, List.map_nil]
  | cons item rest ih =>
    cases item <;> rw [Value.desugarItems, ih, List.map_cons, Value.desugarItem]
    all_goals rintro _ ⟨⟩

lemma Value.mem_desugarItem {items : List Value} {item : Value}
    (h : item ∈ items.map desugarItem) :
    (item.node? = none ∧ item ∈ items) ∨ ∃ n : Node, item = .node n.desugar ∧ .node n ∈ items := by
  obtain ⟨v, hv, rfl⟩ := List.mem_map.mp h
  cases v with
  | node n => exact .inr ⟨n, rfl, hv⟩
  | scalar | list | record => exact .inl ⟨rfl, hv⟩

/-- The items of a desugared list come from items of the list, with branches from the list. -/
lemma Desugar.mem_items {b : Bool} {list : List Value} {r : Value} (h : r ∈ items b list) :
    ∃ item ∈ list, ∃ later, (∀ e ∈ later, e ∈ list ∧ e.Continues) ∧ r = single b item later := by
  match list with
  | [] => simp [items] at h
  | item :: rest =>
    rw [items, List.mem_cons] at h
    rcases h with rfl | h
    · refine ⟨item, by simp, _, fun e he => ?_, rfl⟩
      exact ⟨by simp [List.mem_of_mem_take he], continues_of_mem_taken e he⟩
    · obtain ⟨item', hitem', later, hlater, rfl⟩ := mem_items h
      refine ⟨item', by simp [List.mem_of_mem_drop hitem'], later, fun e he => ?_, rfl⟩
      exact ⟨by simp [List.mem_of_mem_drop (hlater e he).1], (hlater e he).2⟩
termination_by list.length
decreasing_by
  simp only [List.length_drop, List.length_cons]
  omega

/-- The children of a desugared node are the desugared children. -/
lemma Node.children_desugar {n : Node} (hn : n.origin.notes = [])
    (hchildren : (∃ items, (Value.node n).content "children" = .list items) ∨
      (Value.node n).content "children" = .null) :
    Desugar.children (.node n.desugar) = Desugar.items (Value.node n).isJsx
      ((Desugar.children (.node n)).map Value.desugarItem) := by
  rw [Desugar.children, Desugar.children, content_desugar hn]
  rcases hchildren with ⟨items, h⟩ | h
  · rw [h, Value.desugar, Value.desugarItems_eq_map]
    rfl
  · rw [h, Value.desugar]
    simp [Value.parts, Value.items, Except.toOption, Desugar.items]

lemma Expand.runLength_eq_run {rest : List Value} {run : Nat} (h : runLength rest = .ok run) :
    Desugar.run rest = run := by
  induction rest generalizing run with
  | nil => simpa [runLength, Desugar.run] using h
  | cons item rest ih =>
    rcases runLength_cons_eq_ok h with ⟨run', hitem, hrun', rfl⟩ | ⟨hitem, rfl⟩ | ⟨hcontinues, hends, rfl⟩
    · rw [Desugar.run, hitem, ih hrun']
    · rw [Desugar.run, hitem]
    · rw [Desugar.run]
      split <;> simp_all

/-- A list in which all nodes are orderly at every depth. -/
lemma Desugar.run_desugarItems {items : List Value}
    (h : ∀ n : Node, .node n ∈ items → n.Everywhere Node.Orderly) :
    run (items.map Value.desugarItem) = run items := by
  induction items with
  | nil => rfl
  | cons item rest ih =>
    have hitem : item.desugarItem.construct? = item.construct? := by
      cases item with
      | node n => exact Node.construct?_desugar (h n (by simp))
      | scalar | list | record => rfl
    rw [List.map_cons, run, run, hitem, ih fun n hn => h n (by simp [hn])]

/-! ### The pass -/

lemma Desugar.items_of_not_node (b : Bool) {item : Value} (rest : List Value)
    (h : item.node? = none) :
    items b (item.desugarItem :: rest) = item :: items b rest := by
  have hkept : item.desugarItem = item ∧ item.construct? = none ∧ item.isGuardStatement = false := by
    cases item with
    | node n => simp [Value.node?] at h
    | scalar | list | record => exact ⟨rfl, by simp, rfl⟩
  rw [hkept.1, items]
  simp [single, expansion?, taken, hkept]

lemma Expand.Gives.eq_single {holder : Value} {n : Node} {later : List Value} {v : Value}
    (h : Gives holder n later v) : v = Desugar.single holder.isJsx (.node n) later := by
  cases h with
  | expanded hc h => exact Construct.expand_eq_ok (Value.construct?_of_ofValue? hc) h
  | disarmed hc hkind hfield hguard =>
    simp [Desugar.single, Desugar.expansion?, Value.construct?_of_ofValue? hc,
      Value.isGuardStatement, hkind, Value.content_of_field, hfield, hguard, Except.toOption]
  | kept hc hguard =>
    have hguard : (Value.node n).isGuardStatement = false := by
      by_cases hkind : n.kind = .expressionStatement
      · obtain ⟨e, he, hfalse⟩ := hguard hkind
        simp [Value.isGuardStatement, Value.content_of_field, he, hfalse, Except.toOption]
      · simp [Value.isGuardStatement, hkind]
    simp [Desugar.single, Desugar.expansion?, Value.construct?_of_ofValue? hc, hguard]

namespace Expand

variable {traced : Bool} {holder : Value}

/-- If settling desugars the nodes in a list, it desugars the list. -/
lemma Settling.eq_items {items items' : List Value} (h : Settling traced holder items items')
    (horderly : ∀ n : Node, .node n ∈ items → n.Everywhere Node.Orderly)
    (ih : ∀ n : Node, .node n ∈ items → ∀ n', (n.settle traced).toExcept = .ok n' → n' = n.desugar) :
    items' = Desugar.items holder.isJsx (items.map Value.desugarItem) := by
  induction h with
  | nil => rw [List.map_nil, Desugar.items]
  | @passed item rest rest' hitem hrest ihrest =>
    rw [List.map_cons, Desugar.items_of_not_node _ _ hitem,
      ihrest (fun n hn => horderly n (by simp [hn])) (fun n hn => ih n (by simp [hn]))]
  | @node n n' c? run later v rest rest' hn hc hrun hlater hv hrest ihrest =>
    obtain rfl := ih n (by simp) n' hn
    have hrestOrderly (m : Node) (hm : .node m ∈ rest) : m.Everywhere Node.Orderly :=
      horderly m (by simp [hm])
    have htaken : Desugar.taken (.node n.desugar) (rest.map Value.desugarItem) = run := by
      rw [Desugar.taken, Value.construct?_of_ofValue? hc, Desugar.run_desugarItems hrestOrderly]
      split_ifs at hrun ⊢
      · exact runLength_eq_run hrun
      · simpa using hrun
    have hlaterEq : later = (rest.take run).map Value.desugarItem := by
      apply eq_map_of_forall₂ hlater
      rintro item hitem item' ⟨m, m', rfl, rfl, hm⟩
      rw [ih m (by simp [List.mem_of_mem_take hitem]) m' hm, Value.desugarItem]
    have hrest' : rest' = Desugar.items holder.isJsx ((rest.drop run).map Value.desugarItem) :=
      ihrest (fun m hm => hrestOrderly m (List.mem_of_mem_drop hm))
        (fun m hm => ih m (by simp [List.mem_of_mem_drop hm]))
    rw [List.map_cons, Value.desugarItem, Desugar.items, htaken, hv.eq_single, hlaterEq, hrest',
      List.map_take, List.map_drop]

end Expand

/-- If settling desugars the nodes in the slots of a content, it desugars the content. -/
lemma Value.settle_eq_desugar {traced : Bool} {holder v v' : Value}
    (horderly : v.Everywhere Node.Orderly)
    (ih : ∀ m ∈ v.slotNodes, ∀ m', (m.settle traced).toExcept = .ok m' → m' = m.desugar)
    (h : (Value.settle traced holder v).toExcept = .ok v') : v' = v.desugar holder.isJsx := by
  cases v with
  | scalar | record => simpa [Value.settle, Value.desugar, eq_comm] using h
  | node m =>
    obtain ⟨m', hm, hgives⟩ := Value.settle_node_eq_ok h
    rw [hgives.eq_single, ih m (by simp [Value.slotNodes]) m' hm, Value.desugar]
  | list items =>
    obtain ⟨items', hitems, rfl⟩ := Value.settle_list_eq_ok h
    simp only [Value.mem_slotNodes_list] at ih
    rw [hitems.eq_items (Value.everywhere_list.mp horderly) ih, Value.desugar,
      Value.desugarItems_eq_map]

/-- What a node has become when its slots are settled is the desugared node. -/
theorem Node.settle_eq_desugar {traced : Bool} (n : Node) (hn : n.Everywhere Node.Orderly) {n' : Node}
    (h : (n.settle traced).toExcept = .ok n') : n' = n.desugar := by
  induction n using Node.slot_induction generalizing n' with
  | step n ih =>
    rw [Node.toExcept_settle] at h
    obtain ⟨fields', hfields, rfl⟩ := map_eq_ok_iff.mp h
    have hmap : fields' = n.fields.map fun entry =>
        (entry.1, entry.2.desugar (Value.node n).isJsx) := by
      apply eq_map_of_forall₂ (Node.settleFields_eq_ok hfields)
      rintro entry hentry entry' ⟨hname, hv⟩
      have hslots := hn.field hentry
      refine Prod.ext hname (Value.settle_eq_desugar hslots (fun m hm m' hm' => ?_) hv)
      exact ih m ⟨entry, hentry, hm⟩ (hslots m hm) hm'
    rw [hmap, ← Node.desugar_eq]

/-- Where a tree that was read can be expanded, expanding it desugars it. -/
theorem Expand.tree_eq_desugar {asked : Topic → Bool} {filename : String} {json : Json}
    {tree tree' : Value} (hread : Value.ofJson json = .ok tree)
    (h : (Expand.tree asked filename tree).toExcept = .ok tree') :
    ∃ root : Node, tree = .node root ∧ tree' = .node root.desugar := by
  obtain ⟨root, root', rfl, hroot, rfl, -⟩ := Expand.tree_eq_ok h
  refine ⟨root, rfl, ?_⟩
  have horderly : root.Everywhere Node.Orderly := by simpa using Value.ofJson_orderly hread
  rw [root.settle_eq_desugar horderly hroot]

/-- The document of an element without attributes but those given, each with a variable in braces.
-/
def elementDocument (name : String) (attributes : List (String × String)) (text : String) : Json :=
  .record [("type", .text "JSXElement"), ("openingElement",
    .record [("type", .text "JSXOpeningElement"),
      ("name", .record [("type", .text "JSXIdentifier"), ("name", .text name)]),
      ("attributes", .list (attributes.map fun attr =>
        .record [("type", .text "JSXAttribute"),
          ("name", .record [("type", .text "JSXIdentifier"), ("name", .text attr.1)]),
          ("value", .record [("type", .text "JSXExpressionContainer"),
            ("expression", .record [("type", .text "Identifier"), ("name", .text attr.2)])])]))]),
    ("children", .list [.record [("type", .text "JSXText"), ("value", .text text)]])]

/-- The document of `<><$if test={a}>b</$if><$else>c</$else></>`. -/
def chainDocument : Json :=
  .record [("type", .text "JSXFragment"), ("children", .list [
    elementDocument "$if" [("test", "a")] "b", elementDocument "$else" [] "c"])]

/-- The tree of `<>{a ? <>b</> : <>c</>}</>`. -/
def chainExpanded : Value :=
  let text (s : String) : Value := .node ⟨.jsxText, [("value", .text s), ("raw", .null)], {}⟩
  .node (.fragment [.node (.container (.node (.conditional (.node (.identifier "a"))
    (.node (.fragment [text "b"])) (.node (.fragment [text "c"])))))])

theorem Expand.chain_eq_desugar :
    ∃ tree, Value.ofJson chainDocument = .ok tree ∧
      (Expand.tree (fun _ => false) "a.jsx" tree).toExcept = .ok chainExpanded ∧
      ∃ root : Node, tree = .node root ∧ chainExpanded = .node root.desugar := by
  obtain ⟨tree, hread, htree⟩ : ∃ tree, Value.ofJson chainDocument = .ok tree ∧
      (Expand.tree (fun _ => false) "a.jsx" tree).toExcept = .ok chainExpanded :=
    ⟨_, rfl, rfl⟩
  exact ⟨tree, hread, htree, tree_eq_desugar hread htree⟩

end JsxControl
