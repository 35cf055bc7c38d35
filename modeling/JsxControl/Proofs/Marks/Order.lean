import JsxControl.Proofs.Marks.Pass
import Mathlib.Data.List.Pairwise

/-!
# What a pass keeps in order

The children of an element keep their order: marks of two children that are both left stand in the
desugared tree as the children do. Constructs put their expressions and their body in an order of
their own, so that not all marks keep their places; but all marks in the children of one node that a
construct hands on are in one part of what it hands on, and the desugared construct has that part
too.
-/

namespace JsxControl

variable {μ : Type} {k : Marking μ}

/-! ### Lists in which nothing occurs twice -/

/-- A part of a list in which nothing occurs twice is what the list has of it. -/
lemma eq_filter_of_sublist [DecidableEq μ] {part list : List μ} (h : part.Sublist list)
    (hlist : list.Nodup) : part = list.filter (· ∈ part) := by
  induction h with
  | slnil => rfl
  | @cons part list x h ih =>
    rw [List.nodup_cons] at hlist
    have hx : x ∉ part := fun hx => hlist.1 (h.subset hx)
    rw [List.filter_cons_of_neg (by simpa using hx), ← ih hlist.2]
  | @cons_cons part list x h ih =>
    rw [List.nodup_cons] at hlist
    have hrest : list.filter (· ∈ x :: part) = list.filter (· ∈ part) := by
      apply List.filter_congr
      intro y hy
      have hne : y ≠ x := fun heq => hlist.1 (heq ▸ hy)
      simp [hne]
    rw [List.filter_cons_of_pos (by simp), hrest, ← ih hlist.2]

/-- Two items of a part stand in it as they do in the list. -/
lemma pair_sublist_part {part list : List μ} (h : part.Sublist list) (hlist : list.Nodup) {x y : μ}
    (hx : x ∈ part) (hy : y ∈ part) (hxy : [x, y].Sublist list) : [x, y].Sublist part := by
  classical
  rw [eq_filter_of_sublist h hlist]
  simpa [hx, hy] using hxy.filter (· ∈ part)

lemma eq_of_mem_flatMap {α : Type} {list : List α} {f : α → List μ} (h : (list.flatMap f).Nodup)
    {a b : α} (ha : a ∈ list) (hb : b ∈ list) {x : μ} (hxa : x ∈ f a) (hxb : x ∈ f b) : a = b := by
  rw [List.nodup_flatMap] at h
  by_contra hne
  have hsymm : Std.Symm (Function.onFun List.Disjoint f) := ⟨fun _ _ h _ hb ha => h ha hb⟩
  exact h.2.forall ha hb hne hxa hxb

/-- Where each item keeps some of what it has, what is kept of two items stands as the items do. -/
lemma pairwise_flatMap {α : Type} {list : List α} {f g : α → List μ} (h : (list.flatMap f).Nodup)
    (hsub : ∀ a ∈ list, g a ⊆ f a) : list.Pairwise fun a b => ∀ x ∈ f a, ∀ y ∈ f b,
      x ∈ list.flatMap g → y ∈ list.flatMap g → [x, y].Sublist (list.flatMap g) := by
  induction list with
  | nil => exact .nil
  | cons a rest ih =>
    rw [List.forall_mem_cons] at hsub
    rw [List.flatMap_cons, List.nodup_append] at h
    obtain ⟨-, hrest, hdisjoint⟩ := h
    have hkept {x : μ} (hx : x ∈ rest.flatMap g) : x ∈ rest.flatMap f := by
      obtain ⟨b, hb, hx⟩ := List.mem_flatMap.mp hx
      exact List.mem_flatMap.mpr ⟨b, hb, hsub.2 b hb hx⟩
    rw [List.flatMap_cons]
    refine .cons ?_ ((ih hrest hsub.2).imp_of_mem ?_)
    · intro b hb x hx y hy hxkept hykept
      have hyrest : y ∈ rest.flatMap f := List.mem_flatMap.mpr ⟨b, hb, hy⟩
      have hxa : x ∈ g a := (List.mem_append.mp hxkept).resolve_right fun hxrest =>
        hdisjoint x hx x (hkept hxrest) rfl
      have hyg : y ∈ rest.flatMap g := (List.mem_append.mp hykept).resolve_left fun hya =>
        hdisjoint y (hsub.1 hya) y hyrest rfl
      exact (List.singleton_sublist.mpr hxa).append (List.singleton_sublist.mpr hyg)
    · intro b c hb hc hbc x hx y hy hxkept hykept
      have hmem {z : μ} {d : α} (hd : d ∈ rest) (hz : z ∈ f d)
          (hzkept : z ∈ g a ++ rest.flatMap g) : z ∈ rest.flatMap g :=
        (List.mem_append.mp hzkept).resolve_left fun hza =>
          hdisjoint z (hsub.1 hza) z (List.mem_flatMap.mpr ⟨d, hd, hz⟩) rfl
      exact (hbc x hx y hy (hmem hb hx hxkept) (hmem hc hy hykept)).trans
        (List.sublist_append_right _ _)

/-! ### Children -/

/-- Marks of two children of a node that both are in a list stand in it as the children do. -/
def Node.ChildrenInOrder (k : Marking μ) (n : Node) (list : List μ) : Prop :=
  (Desugar.children (.node n)).Pairwise fun c d => ∀ x ∈ c.marks k, ∀ y ∈ d.marks k,
    x ∈ list → y ∈ list → [x, y].Sublist list

/-- The order of children can be read off any list that has all of their marks in a common part. -/
lemma Node.ChildrenInOrder.transfer {n : Node} {list list' part : List μ}
    (h : n.ChildrenInOrder k list) (hlist : list.Nodup) (hpart : part.Sublist list)
    (hpart' : part.Sublist list')
    (hmem : ∀ child ∈ Desugar.children (.node n), ∀ x ∈ child.marks k, x ∈ list' → x ∈ part) :
    n.ChildrenInOrder k list' := by
  refine List.Pairwise.imp_of_mem ?_ h
  intro c d hc hd hcd x hx y hy hxkept hykept
  have hxpart := hmem c hc x hx hxkept
  have hypart := hmem d hd y hy hykept
  have hxy := hcd x hx y hy (hpart.subset hxpart) (hpart.subset hypart)
  exact (pair_sublist_part hpart hlist hxpart hypart hxy).trans hpart'

/-- The children of a node are the items of one of its fields, if there are any. -/
lemma Node.children_entry {n : Node} (hn : n.Everywhere Grammatical) :
    Desugar.children (.node n) = [] ∨
      ("children", .list (Desugar.children (.node n))) ∈ n.fields := by
  cases hfield : n.field "children" with
  | ok v =>
    obtain ⟨hknown, hget⟩ := (field_eq_ok_iff hn.here.notes).mp hfield
    have hentry := Entries.mem_of_get? hget
    obtain ⟨rfl, -⟩ := hn.here.list_of_children hknown hentry
    exact .inr hentry
  | error =>
    left
    simp [Desugar.children, Value.content, hfield, Except.toOption, Value.parts, Value.items]

/-- The marks of the children of a node are a part of its marks. -/
lemma Node.children_sublist {n : Node} (hn : n.Everywhere Grammatical) :
    ((Desugar.children (.node n)).flatMap (Value.marks k)).Sublist (n.marks k) := by
  rcases children_entry hn with hnil | hentry
  · simp [hnil]
  · rw [marks_eq, ← Value.marks_list]
    exact (sublist_flatMap_of_mem (fun entry => entry.2.marks k) hentry).trans
      (List.sublist_append_right _ _)

/-! ### Slots -/

lemma Value.share_sublist_shares {v : Value} {m : Node} (hm : m ∈ v.slotNodes) :
    (Desugar.share k (.node m.desugar)).Sublist (v.shares k) := by
  cases v with
  | node n =>
    obtain rfl : m = n := by simpa [slotNodes] using hm
    exact List.Sublist.refl _
  | list items =>
    have hitem := sublist_flatMap_of_mem (fun item => Desugar.share k item.desugarItem)
      (mem_slotNodes_list.mp hm)
    rwa [desugarItem] at hitem
  | scalar | record => simp [slotNodes] at hm

namespace Node.Accepted

variable {n m : Node}

lemma share_subset (h : n.Accepted) (hm : n.Holds m) :
    Desugar.share k (.node m.desugar) ⊆ m.marks k :=
  ((h.slot hm).loses_share k ((h.slot hm).loses_desugar k)).subset

lemma shares_subset (h : n.Accepted) {entry : String × Value} (hentry : entry ∈ n.fields) :
    entry.2.shares k ⊆ entry.2.marks k := by
  have hslots (m : Node) (hm : m ∈ entry.2.slotNodes) :=
    (h.slot ⟨entry, hentry, hm⟩).loses_share k ((h.slot ⟨entry, hentry, hm⟩).loses_desugar k)
  exact (Value.loses_shares k hslots).subset

lemma shares_sublist (h : n.Accepted) {entry : String × Value} (hentry : entry ∈ n.fields) :
    (entry.2.shares k).Sublist (n.desugar.marks k) := by
  rw [marks_desugar k h.grammatical.orderly h.fine.placed.here]
  exact (sublist_flatMap_of_mem (fun entry => entry.2.shares k) hentry).trans
    (List.sublist_append_right _ _)

/-- What a slot hands on is a part of the desugared node. -/
lemma share_sublist (h : n.Accepted) (hm : n.Holds m) :
    (Desugar.share k (.node m.desugar)).Sublist (n.desugar.marks k) := by
  obtain ⟨entry, hentry, hslot⟩ := hm
  exact (Value.share_sublist_shares hslot).trans (h.shares_sublist hentry)

/-- A mark in a field that is left in the desugared node is one that the field hands on. -/
lemma mem_shares (h : n.Accepted) (hmarks : (n.marks k).Nodup) {entry : String × Value}
    (hentry : entry ∈ n.fields) {x : μ} (hx : x ∈ entry.2.marks k) (hkept : x ∈ n.desugar.marks k) :
    x ∈ entry.2.shares k := by
  rw [marks_eq, List.nodup_append] at hmarks
  obtain ⟨-, hfields, hdisjoint⟩ := hmarks
  rw [marks_desugar k h.grammatical.orderly h.fine.placed.here, List.mem_append] at hkept
  rcases hkept with hown | hkept
  · exact absurd rfl (hdisjoint x hown x (List.mem_flatMap.mpr ⟨entry, hentry, hx⟩))
  · obtain ⟨entry', hentry', hx'⟩ := List.mem_flatMap.mp hkept
    rwa [eq_of_mem_flatMap hfields hentry hentry' hx (h.shares_subset hentry' hx')]

lemma share_item_subset (h : n.Accepted) {name : String} {items : List Value}
    (hentry : (name, .list items) ∈ n.fields) {item : Value} (hitem : item ∈ items) :
    Desugar.share k item.desugarItem ⊆ item.marks k := by
  cases item with
  | node l => simpa [Value.desugarItem] using h.share_subset ⟨_, hentry, by simpa using hitem⟩
  | scalar | list | record =>
    rw [Value.desugarItem, Desugar.share_of_not_node k rfl]
    · exact List.Subset.refl _
    · simp

/-- A mark in a slot that is left in the desugared node is one that the slot hands on. -/
lemma mem_share (h : n.Accepted) (hmarks : (n.marks k).Nodup) (hm : n.Holds m) {x : μ}
    (hx : x ∈ m.marks k) (hkept : x ∈ n.desugar.marks k) :
    x ∈ Desugar.share k (.node m.desugar) := by
  obtain ⟨⟨name, v⟩, hentry, hslot⟩ := hm
  have hxv : x ∈ v.marks k := (Value.marks_sublist_of_mem_slotNodes hslot).subset hx
  have hshares := h.mem_shares hmarks hentry hxv hkept
  cases v with
  | node l =>
    obtain rfl : m = l := by simpa [Value.slotNodes] using hslot
    exact hshares
  | list items =>
    have hitems : (items.flatMap (Value.marks k)).Nodup := by
      rw [marks_eq] at hmarks
      simpa using (List.nodup_flatMap.mp (List.nodup_append.mp hmarks).2.1).1 _ hentry
    obtain ⟨item, hitem, hxitem⟩ := List.mem_flatMap.mp hshares
    obtain rfl := eq_of_mem_flatMap hitems hitem (Value.mem_slotNodes_list.mp hslot)
      (h.share_item_subset hentry hitem hxitem) (by simpa using hx)
    exact hxitem
  | scalar | record => simp [Value.slotNodes] at hslot

end Node.Accepted

/-! ### Parts of constructs -/

lemma Desugar.share_of_stays {n : Node} (h : n.Stays) : share k (.node n) = n.marks k := by
  simp [share, handed, h.1, h.2]

namespace Desugar

/-- The body of an element is a part of its children. -/
lemma body_sublist {children : List Value}
    (h : ∀ child ∈ children, ∃ m : Node, child = .node m ∧ m.Grammatical) :
    ((body children).marks k).Sublist (children.flatMap (Value.marks k)) := by
  match children with
  | [] | _ :: _ :: _ => simp [body]
  | [child] =>
    obtain ⟨m, rfl, hm⟩ := h child (by simp)
    rw [body]
    split_ifs with hbraced
    · obtain ⟨hkind, -⟩ : m.kind = .jsxExpressionContainer ∧ _ := by simpa using hbraced
      simp [Node.marks_of_container k hm hkind]
    · simp
    · simp

end Desugar

namespace Node.AcceptedInSlot

variable {n : Node}

lemma share_subset (h : n.AcceptedInSlot) :
    Desugar.share k (.node n.desugar) ⊆ n.desugar.marks k := by
  intro x hx
  rw [(h.perm_marks k).mem_iff]
  exact List.mem_append_left _ hx

/-- What is handed on is not spent. -/
lemma not_spent (h : n.AcceptedInSlot) (hmarks : (n.marks k).Nodup) {x : μ}
    (hx : x ∈ Desugar.share k (.node n.desugar)) : x ∉ (Value.node n.desugar).spent k := by
  have hnodup := (h.perm_marks k).nodup_iff.mp ((h.loses_desugar k).nodup hmarks)
  exact fun hspent => (List.nodup_append.mp hnodup).2.2 x hx x hspent rfl

/-- A part of what a node hands on is common to it and to the desugared node, and holds those of
some marks that are handed on. -/
def Part (k : Marking μ) (n : Node) (marks : List μ) : Prop :=
  ∃ part : List μ, part.Sublist (n.desugar.marks k) ∧
    part.Sublist (Desugar.share k (.node n.desugar)) ∧
    ∀ x ∈ marks, x ∈ Desugar.share k (.node n.desugar) → x ∈ part

lemma Part.mono {marks marks' : List μ} (h : Part k n marks) (hsub : marks' ⊆ marks) :
    Part k n marks' := by
  obtain ⟨part, hpart, hshare, hmem⟩ := h
  exact ⟨part, hpart, hshare, fun x hx => hmem x (hsub hx)⟩

/-- Of marks that are spent nothing is handed on. -/
lemma part_of_spent (h : n.AcceptedInSlot) (hmarks : (n.marks k).Nodup) {marks : List μ}
    (hspent : ∀ x ∈ marks, x ∈ n.desugar.marks k → x ∈ (Value.node n.desugar).spent k) :
    Part k n marks := by
  refine ⟨[], List.nil_sublist _, List.nil_sublist _, ?_⟩
  intro x hx hshare
  exact absurd (hspent x hx (h.share_subset hshare)) (h.not_spent hmarks hshare)

lemma spent_of_construct {e : Value} {c : Construct} (hc : e.construct? = some c) :
    e.spent k = Desugar.syntaxMarks k e := by
  simp [Value.spent, hc]

section Construct

variable (h : n.AcceptedInSlot) (hmarks : (n.marks k).Nodup) {c : Construct}
  (hc : (Value.node n.desugar).construct? = some c)

include h hmarks hc

/-- The marks of children that a construct hands on are in its body. -/
lemma part_children : Part k n ((Desugar.children (.node n)).flatMap (Value.marks k)) := by
  have hkind : n.kind = .jsxElement := by simpa using kind_of_construct? hc
  have hgrammar := h.desugar_grammatical
  have hentry : ("children", .list (Desugar.children (.node n))) ∈ n.fields := by
    obtain ⟨first, last, hfields, -⟩ := h.grammatical.here.fields_of_parent (.inr hkind)
    simp [hfields]
  have hcontent := h.grammatical.here.content_children (.inr hkind)
  have hcontent' := hgrammar.here.content_children (.inr (by simpa using hkind))
  have hchildren : (Value.list (Desugar.children (.node n))).shares k =
      (Desugar.children (.node n.desugar)).flatMap (Value.marks k) := by
    rw [← Value.marks_list, ← hcontent', content_desugar h.grammatical.here.notes, hcontent]
    exact (Value.marks_desugar k (h.grammatical.orderly.field hentry)
      (h.fine.placed.here _ hentry) _).symm
  have hnodes : ∀ child ∈ Desugar.children (.node n.desugar), ∃ m : Node, child = .node m ∧
      m.Grammatical := by
    intro child hchild
    obtain ⟨m, rfl, hm⟩ := (children_of_grammatical hgrammar).2 child hchild
    exact ⟨m, rfl, hm.here⟩
  refine ⟨(Desugar.body (Desugar.children (.node n.desugar))).marks k, ?_, ?_, ?_⟩
  · exact (Desugar.body_sublist hnodes).trans (children_sublist hgrammar)
  · exact sublist_flatMap_of_mem (Value.marks k) (Desugar.body_mem_handed hc)
  · intro x hx hshare
    have hkept := h.mem_shares hmarks hentry (by simpa using hx) (h.share_subset hshare)
    rw [hchildren, (Desugar.marks_children k hnodes).mem_iff, List.mem_append] at hkept
    refine hkept.resolve_right fun hbraces => h.not_spent hmarks hshare ?_
    rw [spent_of_construct hc]
    simp [Desugar.syntaxMarks, hbraces]

/-- The marks of an attribute that a construct hands on are in the expression that it gives. -/
lemma part_attribute {o a : Node} (ho : n.Holds o) (hopening : o.kind = .jsxOpeningElement)
    (ha : o.Holds a) (hattribute : .node a ∈ Desugar.attributes (.node n)) :
    Part k n (a.marks k) := by
  have hkind : n.kind = .jsxElement := by simpa using kind_of_construct? hc
  have hattribute' : Value.node a.desugar ∈ Desugar.attributes (.node n.desugar) := by
    rw [Desugar.attributes_desugar h.grammatical hkind]
    exact List.mem_map_of_mem hattribute
  obtain ⟨_, hnode, hgrammar, hakind, name, hname, -, hfound, hvalue⟩ :=
    (h.sound c hc).attribute h.desugar_grammatical (by simpa using hkind)
      (h.desugar_distinct (by simp [hc])) hattribute'
  obtain rfl := Value.node.inj hnode
  have hshareO : Desugar.share k (.node o.desugar) = o.desugar.marks k :=
    Desugar.share_of_stays (stays_of_kind (by simp [hopening]) (by simp [hopening]))
  have hshareA : Desugar.share k (.node a.desugar) = a.desugar.marks k :=
    Desugar.share_of_stays (stays_of_kind (by rw [hakind]; decide) (by rw [hakind]; decide))
  have hsplit := marks_attribute k hgrammar hakind hvalue
  refine ⟨(((Value.node a.desugar).content "value").content "expression").marks k, ?_, ?_, ?_⟩
  · have hin := (h.slot ho).share_sublist (k := k) ha
    have hout := h.share_sublist (k := k) ho
    rw [hshareA, hsplit] at hin
    rw [hshareO] at hout
    exact (List.sublist_append_right _ _).trans (hin.trans hout)
  · have hexpression : Desugar.expression (.node n.desugar) name =
        ((Value.node a.desugar).content "value").content "expression" := by
      rw [Desugar.expression, hfound, Option.getD_some]
    rw [← hexpression]
    exact sublist_flatMap_of_mem (Value.marks k) (Desugar.expression_mem_handed hc hname)
  · intro x hx hshare
    have hxO := h.mem_share hmarks ho (ha.marks_sublist.subset hx) (h.share_subset hshare)
    rw [hshareO] at hxO
    have hxA := (h.slot ho).mem_share (ho.marks_sublist.nodup hmarks) ha hx hxO
    rw [hshareA, hsplit, List.mem_append] at hxA
    refine hxA.resolve_left fun hsyntax => h.not_spent hmarks hshare ?_
    rw [spent_of_construct hc]
    simp only [Desugar.syntaxMarks, List.mem_append]
    exact .inl (.inl (.inr (List.mem_flatMap.mpr ⟨_, hattribute', hsyntax⟩)))

/-- Of the closing tag of a construct nothing is handed on. -/
lemma part_closing {closing : Node} (hclosing : n.Holds closing)
    (hfield : n.field "closing_element" = .ok (.node closing))
    (hkind : closing.kind = .jsxClosingElement) : Part k n (closing.marks k) := by
  apply h.part_of_spent hmarks
  intro x hx hkept
  have hshare := h.mem_share hmarks hclosing hx hkept
  rw [Desugar.share_of_stays (stays_of_kind (by simp [hkind]) (by simp [hkind]))] at hshare
  rw [spent_of_construct hc, Desugar.syntaxMarks, List.mem_append,
    content_desugar h.grammatical.here.notes "closing_element", Value.content_of_node_field hfield,
    Value.desugar, Desugar.single_of_kind (by simp [hkind]) (by simp [hkind])]
  exact .inr (by simpa using hshare)

/-- Of the name of a construct nothing is handed on. -/
lemma part_name {o name : Node} (ho : n.field "opening_element" = .ok (.node o))
    (hopening : o.kind = .jsxOpeningElement) (hname : o.field "name" = .ok (.node name)) :
    Part k n (name.marks k) := by
  have hgrammar : o.Everywhere Grammatical := by
    simpa using h.grammatical.found h.grammatical.here.notes ho
  have hc' : (Value.node n).construct? = some c := by
    rwa [← construct?_desugar h.grammatical.orderly]
  apply h.part_of_spent hmarks
  intro x hx _
  rw [spent_of_construct hc]
  simp only [Desugar.syntaxMarks, List.mem_append,
    content_opening_desugar h.grammatical ho hopening, name_desugar ho hgrammar hc',
    Value.content_of_node_field hname]
  exact .inl (.inl (.inl (.inr (by simpa using hx))))

/-- In the opening tag of a construct, the marks of a slot that are handed on have a part in
common. -/
lemma part_opening {o i : Node} (hfield : n.field "opening_element" = .ok (.node o))
    (ho : n.Holds o) (hopening : o.kind = .jsxOpeningElement) (hi : o.Holds i) :
    Part k n (i.marks k) := by
  have hgrammar : o.Grammatical := h.grammatical o (.single ho)
  obtain ⟨⟨field, v⟩, hentry, hslot⟩ := id hi
  obtain ⟨hcontent, d, hd, hv⟩ := hgrammar.entry (by rw [hopening]; rfl) hentry
  have hfound := hgrammar.field_of_mem (by rw [hopening]; rfl) hentry
  simp only [hopening, Kind.demands, List.mem_cons, Prod.mk.injEq, List.not_mem_nil, or_false] at hd
  rcases hd with ⟨rfl, rfl⟩ | ⟨rfl, rfl⟩ | ⟨rfl, rfl⟩
  · obtain ⟨name, rfl, -⟩ := hv
    obtain rfl : i = name := by simpa [Value.slotNodes] using hslot
    exact h.part_name hmarks hc hfield hopening hfound
  · obtain ⟨items, rfl, -⟩ := hv
    apply h.part_attribute hmarks hc ho hopening hi
    rw [Desugar.attributes, Value.content_of_node_field hfield, hcontent]
    exact Value.mem_slotNodes_list.mp hslot
  · obtain ⟨s, rfl⟩ := hv
    simp [Value.slotNodes] at hslot

/-- The marks of the children of a node that a construct hands on have a part in common. -/
lemma part_inside {m : Node} (hm : Relation.ReflTransGen Holds n m) :
    Part k n ((Desugar.children (.node m)).flatMap (Value.marks k)) := by
  have hn := h.grammatical
  have hkind : n.kind = .jsxElement := by simpa using kind_of_construct? hc
  have hsub {l : Node} (hlm : Relation.ReflTransGen Holds l m) :
      ((Desugar.children (.node m)).flatMap (Value.marks k)) ⊆ l.marks k := by
    have hchildren := children_sublist (k := k) fun l hl => hn l (hm.trans hl)
    exact (hchildren.trans (marks_sublist_of_reach hlm)).subset
  rcases hm.cases_head with rfl | ⟨l, hl, hlm⟩
  · exact h.part_children hmarks hc
  obtain ⟨⟨field, v⟩, hentry, hslot⟩ := id hl
  obtain ⟨hcontent, d, hd, hv⟩ := hn.here.entry (by rw [hkind]; rfl) hentry
  have hfound := hn.here.field_of_mem (by rw [hkind]; rfl) hentry
  simp only [hkind, Kind.demands, List.mem_cons, Prod.mk.injEq, List.not_mem_nil, or_false] at hd
  rcases hd with ⟨rfl, rfl⟩ | ⟨rfl, rfl⟩ | ⟨rfl, rfl⟩
  · obtain ⟨o, rfl, hopening⟩ := hv
    obtain rfl : l = o := by simpa [Value.slotNodes] using hslot
    have hopening : l.kind = .jsxOpeningElement := by simpa using hopening
    rcases hlm.cases_head with rfl | ⟨i, hi, him⟩
    · have hnil := children_eq_nil (hn l hm) (by rw [hopening]; decide)
      exact h.part_of_spent hmarks (by simp [hnil])
    · exact (h.part_opening hmarks hc hfound hl hopening hi).mono (hsub him)
  · obtain ⟨items, rfl, -⟩ := hv
    refine (h.part_children hmarks hc).mono fun x hx => ?_
    refine List.mem_flatMap.mpr ⟨.node l, ?_, by simpa using hsub hlm hx⟩
    rw [Desugar.children, hcontent]
    exact Value.mem_slotNodes_list.mp hslot
  · rcases hv with rfl | ⟨closing, rfl, hclosing⟩
    · simp [Value.slotNodes] at hslot
    · obtain rfl : l = closing := by simpa [Value.slotNodes] using hslot
      exact (h.part_closing hmarks hc hl hfound (by simpa using hclosing)).mono (hsub hlm)

end Construct

/-- The marks of the children of a node that a node hands on have a part in common. -/
lemma part (h : n.AcceptedInSlot) (hmarks : (n.marks k).Nodup) {m : Node}
    (hm : Relation.ReflTransGen Holds n m) :
    Part k n ((Desugar.children (.node m)).flatMap (Value.marks k)) := by
  cases hc : (Value.node n.desugar).construct? with
  | some c => exact h.part_inside hmarks hc hm
  | none =>
    cases hguard : (Value.node n.desugar).isGuardStatement with
    | true =>
      apply h.part_of_spent hmarks
      intro x _ hx
      simpa [Value.spent, hc, hguard] using hx
    | false =>
      have hshare : Desugar.share k (.node n.desugar) = n.desugar.marks k :=
        Desugar.share_of_stays ⟨hc, hguard⟩
      refine ⟨n.desugar.marks k, List.Sublist.refl _, hshare ▸ List.Sublist.refl _, ?_⟩
      intro x _ hx
      exact hshare ▸ hx

end Node.AcceptedInSlot

/-! ### The pass -/

namespace Node.Accepted

variable {n : Node}

/-- The children of a node keep their order in it. -/
lemma ownChildrenInOrder (h : n.Accepted) (hmarks : (n.marks k).Nodup) :
    n.ChildrenInOrder k (n.desugar.marks k) := by
  rcases children_entry h.grammatical with hnil | hentry
  · simp [ChildrenInOrder, hnil]
  · have hshares : n.ChildrenInOrder k
        ((Value.list (Desugar.children (.node n))).shares k) :=
      pairwise_flatMap ((children_sublist h.grammatical).nodup hmarks)
        fun _ hitem => h.share_item_subset hentry hitem
    have hsub := h.shares_sublist (k := k) hentry
    refine hshares.transfer (hsub.nodup ((h.loses_desugar k).nodup hmarks)) (.refl _) hsub ?_
    intro child hchild x hx hkept
    exact h.mem_shares hmarks hentry (by simpa using ⟨child, hchild, hx⟩) hkept

/-- The children of all nodes in a tree keep their order. -/
theorem childrenInOrder (h : n.Accepted) (hmarks : (n.marks k).Nodup) {m : Node}
    (hm : Relation.ReflTransGen Holds n m) : m.ChildrenInOrder k (n.desugar.marks k) := by
  induction n using slot_induction with
  | step n ih =>
    rcases hm.cases_head with rfl | ⟨l, hl, hlm⟩
    · exact h.ownChildrenInOrder hmarks
    have hslot := h.slot hl
    have hlmarks := hl.marks_sublist.nodup hmarks
    have hloses := hslot.loses_desugar k
    have hinside {child : Value} (hchild : child ∈ Desugar.children (.node m)) :
        child.marks k ⊆ (Desugar.children (.node m)).flatMap (Value.marks k) :=
      (sublist_flatMap_of_mem _ hchild).subset
    -- The order is kept in the slot, then in what the slot hands on, and so in the node.
    have hshare : m.ChildrenInOrder k (Desugar.share k (.node l.desugar)) := by
      obtain ⟨part, hpart, hpartShare, hmem⟩ := hslot.part hlmarks hlm
      refine (ih l hl hslot.toAccepted hlmarks hlm).transfer (hloses.nodup hlmarks) hpart
        hpartShare ?_
      exact fun child hchild x hx hkept => hmem x (hinside hchild hx) hkept
    have hnodup := (hslot.loses_share k hloses).nodup hlmarks
    refine hshare.transfer hnodup (.refl _) (h.share_sublist hl) ?_
    intro child hchild x hx hkept
    have hchildren := children_sublist (k := k) fun i hi => h.grammatical i (hm.trans hi)
    have hxl := (hchildren.trans (marks_sublist_of_reach hlm)).subset (hinside hchild hx)
    exact h.mem_share hmarks hl hxl hkept

end Node.Accepted

end JsxControl
