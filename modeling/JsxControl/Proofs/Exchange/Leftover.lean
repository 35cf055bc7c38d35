import JsxControl.Proofs.Exchange.Rereading
import JsxControl.Proofs.NormalForm

/-!
# Pseudo-elements in documents

A pass leaves no construct in the slots of a tree, but the document of the tree may still show one:
what reading does not convert is not looked at, and neither are lists within lists. Nothing else is
passed over. Every pseudo-element that the document of an expanded tree shows, outside of lists
within lists, stands in a part that is kept unconverted, and stood in such a part of the document
that was read.
-/

namespace JsxControl

open Entries

/-! ### Parts of documents -/

namespace Json

/-- The document of an element that bears the name of a construct. -/
def IsConstruct (json : Json) : Prop :=
  ∃ (members opening name : List (String × Json)) (c : Construct), json = .record members ∧
    get? members "type" = some (.text "JSXElement") ∧
    get? members "openingElement" = some (.record opening) ∧
    get? opening "name" = some (.record name) ∧
    get? name "type" = some (.text "JSXIdentifier") ∧ get? name "name" = some (.text c.name)

/-- A part that reading comes to and keeps as it is: a record without a type tag, or a member of a
record with one that is no field of the kind. -/
def Keeps (json part : Json) : Prop :=
  ∃ members, json.Reaches (.record members) ∧
    ((get? members "type" = none ∧ part = .record members) ∨
      ∃ tag key, get? members "type" = some (.scalar tag) ∧ (key, part) ∈ members ∧
        (Kind.ofTag tag).fieldOfKey? key = none)

/-- A part within a list that is itself an item of a list. -/
def Nests (json part : Json) : Prop :=
  ∃ outer inner, json.HasPart (.list outer) ∧ .list inner ∈ outer ∧ (Json.list inner).HasPart part

/-- All constructs within a part have a property. -/
def ConstructsHave (W : Json → Prop) (json : Json) : Prop :=
  ∀ part, json.HasPart part → part.IsConstruct → W part

variable {json part : Json} {W : Json → Prop}

lemma Keeps.head {inner : Json} (hstep : json.Converts inner) (h : inner.Keeps part) :
    json.Keeps part := by
  obtain ⟨members, hreach, hkept⟩ := h
  exact ⟨members, .head hstep hreach, hkept⟩

lemma Nests.head {inner : Json} (hstep : json.Holds inner) (h : inner.Nests part) :
    json.Nests part := by
  obtain ⟨outer, list, houter, hrest⟩ := h
  exact ⟨outer, list, .head hstep houter, hrest⟩

lemma not_isConstruct_scalar (s : Scalar) : ¬ (Json.scalar s).IsConstruct := by
  rintro ⟨_, _, _, _, ⟨⟩, _⟩

lemma not_isConstruct_list (items : List Json) : ¬ (Json.list items).IsConstruct := by
  rintro ⟨_, _, _, _, ⟨⟩, _⟩

lemma not_isConstruct_untyped {members : List (String × Json)} (h : Untyped members) :
    ¬ (Json.record members).IsConstruct := by
  rintro ⟨_, _, _, _, ⟨⟩, htype, _⟩
  simp [show get? members "type" = none from h] at htype

/-- A construct within a part that is none itself is within one of its parts. -/
lemma HasPart.exists_holds (h : json.HasPart part) (hpart : part.IsConstruct)
    (hjson : ¬ json.IsConstruct) : ∃ inner, json.Holds inner ∧ inner.HasPart part := by
  obtain rfl | hstep := h.cases_head
  · exact absurd hpart hjson
  · exact hstep

lemma ConstructsHave.of_scalar (s : Scalar) : (Json.scalar s).ConstructsHave W := by
  intro part h hpart
  obtain ⟨inner, hstep, -⟩ := h.exists_holds hpart (not_isConstruct_scalar s)
  cases hstep

lemma ConstructsHave.of_list {items : List Json} (h : ∀ item ∈ items, item.ConstructsHave W) :
    (Json.list items).ConstructsHave W := by
  intro part hhas hpart
  obtain ⟨inner, hstep, hrest⟩ := hhas.exists_holds hpart (not_isConstruct_list items)
  cases hstep with
  | item hitem => exact h _ hitem part hrest hpart

lemma ConstructsHave.of_untyped {members : List (String × Json)} (htype : Untyped members)
    (h : ∀ member ∈ members, member.2.ConstructsHave W) :
    (Json.record members).ConstructsHave W := by
  intro part hhas hpart
  obtain ⟨inner, hstep, hrest⟩ := hhas.exists_holds hpart (not_isConstruct_untyped htype)
  cases hstep with
  | member hmember => exact h _ hmember part hrest hpart

lemma ConstructsHave.within {inner : Json} (h : json.ConstructsHave W)
    (hinner : json.HasPart inner) : inner.ConstructsHave W :=
  fun part hpart => h part (hinner.trans hpart)

/-! ### Looking into documents -/

lemma holds_of_member {name : String} (h : json.member name = .ok part) : json.Holds part := by
  cases json with
  | record members =>
    rw [member] at h
    split at h
    · next u hu =>
      obtain rfl : u = part := by simpa using h
      exact .member (mem_of_get? hu)
    · simp at h
  | scalar | list => simp [member] at h

/-- What a document is made of is a part of it, or a scalar. -/
lemma holds_of_mem_parts {parts : List Json} (h : json.parts = .ok parts) (hpart : part ∈ parts) :
    json.Holds part ∨ ∃ s, part = .scalar s := by
  cases json with
  | list items =>
    obtain rfl : items = parts := by simpa [Json.parts] using h
    exact .inl (.item hpart)
  | scalar s =>
    right
    cases s with
    | text s =>
      obtain rfl : _ = parts := by simpa [Json.parts] using h
      obtain ⟨c, -, rfl⟩ := List.mem_map.mp hpart
      exact ⟨_, rfl⟩
    | null | bool | int | float => simp [Json.parts] at h
  | record members =>
    right
    obtain rfl : _ = parts := by simpa [Json.parts] using h
    obtain ⟨member, -, rfl⟩ := List.mem_map.mp hpart
    exact ⟨_, rfl⟩

end Json

/-! ### What nodes keep of their documents -/

/-- All constructs within what is known of a node beside its fields have a property. -/
structure Origin.ConstructsHave (W : Json → Prop) (o : Origin) : Prop where
  extra : ∀ member ∈ o.extra, member.2.ConstructsHave W
  loc : ∀ l, o.loc = some l → l.toJson.ConstructsHave W
  range : ∀ range, o.range = some range →
    (Json.list [range.1, range.2]).ConstructsHave W

variable {W : Json → Prop}

lemma Position.constructsHave_toJson {json : Json} {p : Position} (hjson : json.ConstructsHave W)
    (h : Position.ofJson json = .ok p) : p.toJson.ConstructsHave W := by
  have hmember {name : String} {part : Json} (hpart : json.member name = .ok part) :
      part.ConstructsHave W :=
    hjson.within (.single (Json.holds_of_member hpart))
  simp only [Position.ofJson, bind_eq_ok_iff, pure_eq_ok, Except.ok.injEq] at h
  obtain ⟨line, hline, column, hcolumn, rfl⟩ := h
  have hoffset : ((json.member "offset").toOption.getD .null).ConstructsHave W := by
    cases hpart : json.member "offset" with
    | error => exact .of_scalar _
    | ok offset => exact hmember hpart
  rw [toJson]
  split <;>
    refine .of_untyped (by simp [Untyped, get?_cons]) ?_ <;>
    simp only [List.cons_append, List.nil_append, List.append_nil, List.forall_mem_cons]
  · exact ⟨hmember hline, hmember hcolumn, by simp⟩
  · exact ⟨hmember hline, hmember hcolumn, hoffset, by simp⟩

lemma Location.constructsHave_toJson {members : List (String × Json)} {l : Location}
    (hmembers : ∀ loc, get? members "loc" = some loc → loc.ConstructsHave W)
    (h : Location.ofMembers members = .ok (some l)) : l.toJson.ConstructsHave W := by
  rw [ofMembers] at h
  split at h
  · next loc hloc =>
    obtain ⟨start, hstart, p, hp, stop, hstop, q, hq, rfl⟩ : ∃ start,
        (Json.record loc).member "start" = .ok start ∧ ∃ p, Position.ofJson start = .ok p ∧
          ∃ stop, (Json.record loc).member "end" = .ok stop ∧ ∃ q, Position.ofJson stop = .ok q ∧
            Location.mk p q = l := by
      simpa using h
    have hmember {name : String} {part : Json}
        (hpart : (Json.record loc).member name = .ok part) : part.ConstructsHave W :=
      (hmembers _ hloc).within (.single (Json.holds_of_member hpart))
    refine .of_untyped (by simp [Untyped, get?_cons]) ?_
    simp only [List.forall_mem_cons]
    exact ⟨Position.constructsHave_toJson (hmember hstart) hp,
      Position.constructsHave_toJson (hmember hstop) hq, by simp⟩
  · simp at h

lemma Origin.constructsHave_range {members : List (String × Json)} {start stop : Json}
    (hmembers : ∀ range, get? members "range" = some range → range.ConstructsHave W)
    (h : Origin.rangeOfMembers members = .ok (some (start, stop))) :
    (Json.list [start, stop]).ConstructsHave W := by
  have hint {json : Json} (h : json.int?.isSome) : json.ConstructsHave W := by
    cases json with
    | scalar s => exact .of_scalar s
    | list | record => simp [Json.int?] at h
  refine .of_list ?_
  rcases Origin.ends_of_rangeOfMembers h with ⟨range, hrange, hparts⟩ | ⟨hstart, hstop⟩
  · intro part hpart
    rcases Json.holds_of_mem_parts hparts hpart with hholds | ⟨s, rfl⟩
    · exact (hmembers range hrange).within (.single hholds)
    · exact .of_scalar s
  · simp [hint hstart, hint hstop]

/-- What is known of a node beside its fields comes from members that are no fields. -/
lemma Node.ReadFrom.constructsHave {n : Node} {members : List (String × Json)}
    (hn : n.ReadFrom members) (hW : ∀ key part, (key, part) ∈ members →
      n.kind.fieldOfKey? key = none → part.ConstructsHave W) : n.origin.ConstructsHave W where
  extra := by
    intro member hmember
    rw [hn.extra, Kind.extraOfMembers, List.mem_filter] at hmember
    obtain ⟨hmember, -, hapart⟩ : member ∈ members ∧ member.1 ∉ Kind.reservedKeys ∧
        n.kind.fieldOfKey? member.1 = none := by simpa using hmember
    exact hW member.1 member.2 hmember hapart
  loc := by
    intro l hl
    refine Location.constructsHave_toJson (fun loc hloc => ?_) (hl ▸ hn.loc)
    exact hW "loc" loc (mem_of_get? hloc) (by simp [Kind.fieldOfKey?, Kind.reservedKeys])
  range := by
    intro range hrange
    refine Origin.constructsHave_range (fun json hjson => ?_) (hrange ▸ hn.range)
    exact hW "range" json (mem_of_get? hjson) (by simp [Kind.fieldOfKey?, Kind.reservedKeys])

/-! ### Parts of trees -/

namespace Value

/-- An item of a list, or what a field of a node holds. -/
inductive Holds : Value → Value → Prop
  | item {items : List Value} {u : Value} (h : u ∈ items) : Holds (.list items) u
  | field {n : Node} {entry : String × Value} (h : entry ∈ n.fields) : Holds (.node n) entry.2

/-- A part at any depth, the value itself included. -/
def HasPart : Value → Value → Prop := Relation.ReflTransGen Holds

variable {P : Node → Prop} {Q : List (String × Json) → Prop} {v u : Value}

lemma Throughout.holds (hv : v.Throughout P Q) (h : v.Holds u) : u.Throughout P Q := by
  cases h with
  | item h => exact hv.item h
  | field h => exact hv.field h

lemma Throughout.part (hv : v.Throughout P Q) (h : v.HasPart u) : u.Throughout P Q := by
  induction h with
  | refl => exact hv
  | tail _ hstep ih => exact ih.holds hstep

end Value

namespace Node.Regular

variable {n : Node} (h : n.Regular)
include h

/-- What a field holds is converted when the document of the node is read. -/
lemma converts {entry : String × Value} (hentry : entry ∈ n.fields) :
    n.toJson.Converts entry.2.toJson := by
  have hname : (Kind.ofTag n.kind.tag).fieldOfKey? (n.kind.keyOfField entry.1) = some entry.1 := by
    rw [h.kind, h.spelled _ (mem_names_of_mem hentry)]
  rw [h.toJson_eq]
  exact .field (get?_written_type n) (List.mem_cons_of_mem _ (List.mem_append_left _ (mem_members hentry)))
    hname

lemma keeps {key : String} {part : Json} (hmember : (key, part) ∈ n.written)
    (hkey : n.kind.fieldOfKey? key = none) : n.toJson.Keeps part := by
  rw [h.toJson_eq]
  refine ⟨n.written, .refl, .inr ⟨n.kind.tag, key, get?_written_type n, hmember, ?_⟩⟩
  rw [h.kind, hkey]

/-- What the document of a node holds is its tag, what a field was written as, or kept. -/
lemma holds_toJson {W : Json → Prop} (hW : n.origin.ConstructsHave W) {part : Json}
    (hpart : n.toJson.Holds part) : (∃ s, part = .scalar s) ∨
      (∃ entry ∈ n.fields, part = entry.2.toJson) ∨
        (n.toJson.Keeps part ∧ part.ConstructsHave W) := by
  have hreserved {key : String} (hkey : key ∈ Kind.reservedKeys) : n.kind.fieldOfKey? key = none := by
    simp [Kind.fieldOfKey?, hkey]
  rw [h.toJson_eq] at hpart
  cases hpart with
  | @member _ key _ hmember =>
    have hlocation := Origin.locationMembers_eq h.notes
    rcases List.mem_cons.mp hmember with heq | hrest
    · exact .inl ⟨_, (Prod.mk.inj heq).2⟩
    · rcases List.mem_append.mp hrest with hmem | hmem
      · rcases List.mem_append.mp hmem with hextra | hfield
        · refine .inr (.inr ⟨h.keeps hmember ?_, hW.extra _ hextra⟩)
          exact (h.apart _ (mem_names_of_mem hextra)).2
        · obtain ⟨entry, hentry, heq⟩ := List.mem_map.mp hfield
          exact .inr (.inl ⟨entry, hentry, (Prod.mk.inj heq).2.symm⟩)
      · rw [hlocation, List.mem_append] at hmem
        rcases hmem with hloc | hrange
        · obtain ⟨l, hl, heq⟩ := List.mem_map.mp hloc
          obtain ⟨rfl, rfl⟩ := Prod.mk.inj heq
          exact .inr (.inr ⟨h.keeps hmember (hreserved (by decide)),
            hW.loc l (Option.mem_toList.mp hl)⟩)
        · obtain ⟨range, hr, heq⟩ := List.mem_map.mp hrange
          obtain ⟨rfl, rfl⟩ := Prod.mk.inj heq
          exact .inr (.inr ⟨h.keeps hmember (hreserved (by decide)),
            hW.range range (Option.mem_toList.mp hr)⟩)

end Node.Regular

namespace Value.Throughout

variable {v : Value}

/-- A construct that the document of a tree shows is the document of a node of the tree, or it stands
in a part that is kept. -/
lemma construct_in_toJson
    (h : v.Throughout (fun n => n.Regular ∧ n.origin.ConstructsHave W)
      (fun members => Untyped members ∧ (Json.record members).ConstructsHave W))
    {part : Json} (hpart : v.toJson.HasPart part) (hconstruct : part.IsConstruct) :
    (∃ m : Node, v.HasPart (.node m) ∧ part = m.toJson) ∨
      W part ∧ ∃ kept, v.toJson.Keeps kept ∧ kept.HasPart part := by
  induction h with
  | scalar s =>
    rw [Value.toJson] at hpart
    exact absurd (Json.ConstructsHave.of_scalar (W := fun _ => False) s part hpart hconstruct) id
  | @record members h =>
    rw [Value.toJson] at hpart ⊢
    exact .inr ⟨h.2 part hpart hconstruct, _, ⟨members, .refl, .inl ⟨h.1, rfl⟩⟩, hpart⟩
  | @list items _ ih =>
    rw [Value.toJson, Value.toJsonItems_eq_map] at hpart ⊢
    obtain ⟨_, hstep, hrest⟩ := hpart.exists_holds hconstruct (Json.not_isConstruct_list _)
    cases hstep with
    | item hitem =>
      obtain ⟨u, hu, rfl⟩ := List.mem_map.mp hitem
      rcases ih u hu hrest with ⟨m, hm, rfl⟩ | ⟨hW, kept, hkept, hhas⟩
      · exact .inl ⟨m, .head (.item hu) hm, rfl⟩
      · exact .inr ⟨hW, kept, hkept.head (.item hitem), hhas⟩
  | @node n h _ ih =>
    rw [Value.toJson] at hpart ⊢
    obtain rfl | ⟨inner, hstep, hrest⟩ := hpart.cases_head
    · exact .inl ⟨n, .refl, rfl⟩
    · rcases h.1.holds_toJson h.2 hstep with ⟨s, rfl⟩ | ⟨entry, hentry, rfl⟩ | ⟨hkept, hW⟩
      · exact absurd (Json.ConstructsHave.of_scalar (W := fun _ => False) s part hrest hconstruct) id
      · rcases ih entry hentry hrest with ⟨m, hm, rfl⟩ | ⟨hW, kept, hkept, hhas⟩
        · exact .inl ⟨m, .head (.field hentry) hm, rfl⟩
        · exact .inr ⟨hW, kept, hkept.head (h.1.converts hentry), hhas⟩
      · exact .inr ⟨hW part hrest hconstruct, inner, hkept, hrest⟩

variable (h : v.Throughout Node.Regular Untyped)
include h

lemma holds_toJson {u : Value} (hstep : v.Holds u) : v.toJson.Holds u.toJson := by
  cases hstep with
  | item hitem =>
    rw [Value.toJson, Value.toJsonItems_eq_map]
    exact .item (List.mem_map_of_mem hitem)
  | field hentry =>
    rw [Value.toJson]
    exact (h.here.converts hentry).holds

lemma hasPart_toJson {u : Value} (hpart : v.HasPart u) : v.toJson.HasPart u.toJson := by
  induction hpart with
  | refl => exact .refl
  | tail hpart hstep ih => exact ih.tail ((h.part hpart).holds_toJson hstep)

/-- A node of a tree is reached through slots, or its document is within a list in a list. -/
lemma slot_or_nests {m : Node} (hpart : v.HasPart (.node m)) :
    (∃ l ∈ v.slotNodes, Relation.ReflTransGen Node.Holds l m) ∨ v.toJson.Nests m.toJson := by
  induction hpart using Relation.ReflTransGen.head_induction_on with
  | refl => exact .inl ⟨m, by simp [Value.slotNodes], .refl⟩
  | @head v u hstep hrest ih =>
    have hstepJson := h.holds_toJson hstep
    rcases ih (h.holds hstep) with ⟨l, hl, hlm⟩ | hnests
    · cases hstep with
      | @field n entry hentry => exact .inl ⟨n, by simp [Value.slotNodes], .head ⟨entry, hentry, hl⟩ hlm⟩
      | @item items u hitem =>
        cases u with
        | node n =>
          obtain rfl : l = n := by simpa [Value.slotNodes] using hl
          exact .inl ⟨l, Value.mem_slotNodes_list.mpr hitem, hlm⟩
        | list inner =>
          right
          have hinner := (h.item hitem).hasPart_toJson hrest
          rw [Value.toJson, Value.toJsonItems_eq_map]
          rw [Value.toJson] at hinner
          refine ⟨_, _, .refl, ?_, hinner⟩
          exact List.mem_map.mpr ⟨_, hitem, by rw [Value.toJson]⟩
        | scalar | record => simp [Value.slotNodes] at hl
    · exact .inr (hnests.head hstepJson)

end Value.Throughout

/-! ### Constructs -/

/-- A field that is found stands in the document under its key. -/
lemma Node.Regular.get?_written_of_field {n : Node} (h : n.Regular) {name : String} {v : Value}
    (hv : n.field name = .ok v) : get? n.written (n.kind.keyOfField name) = some v.toJson := by
  obtain ⟨-, hget⟩ := (Node.field_eq_ok_iff h.notes).mp hv
  have hname := h.spelled name (mem_names_of_mem (mem_of_get? hget))
  rw [h.get?_written (Kind.not_reserved_of_fieldOfKey? hname)]
  have hentry : (name, v) ∈ n.fields := mem_of_get? hget
  have hmember := Node.mem_members hentry
  exact get?_of_mem h.nodup_members hmember

lemma Node.Regular.kind_of_written {n : Node} (h : n.Regular) (kind : Kind)
    (hknown : kind.isOther = false) (htag : get? n.written "type" = some (.scalar kind.tag)) :
    n.kind = kind := by
  rw [get?_written_type, Option.some.injEq, Json.scalar.injEq] at htag
  rw [← h.kind, htag, Kind.ofTag_tag hknown]

lemma Kind.keyOfField_name (kind : Kind) : kind.keyOfField "name" = "name" := by
  have hkey : FieldName.toKey "name" = "name" := rfl
  simp [keyOfField, hkey]

/-- A node whose document is that of a construct is one, or it cannot be told what it is. -/
lemma Node.not_isConstruct_toJson {n : Node}
    (h : (Value.node n).Throughout Node.Regular Untyped)
    (hnone : Construct.ofValue? (.node n) = .ok none) : ¬ n.toJson.IsConstruct := by
  rintro ⟨members, opening, name, c, hjson, htype, hopening, hname, hident, hspelled⟩
  rw [h.here.toJson_eq, Json.record.injEq] at hjson
  subst hjson
  have hkind : n.kind = .jsxElement := h.here.kind_of_written .jsxElement rfl htype
  obtain ⟨t, ht, s, hs, hc⟩ : ∃ t, (Value.node n).tagName = .ok t ∧ ∃ s, t.key = .ok s ∧
      Construct.ofName? s = none := by
    simpa [Construct.ofValue?] using hnone
  obtain ⟨v, hv, u, hu, ht⟩ : ∃ v, n.field "opening_element" = .ok v ∧ ∃ u,
      v.field "name" = .ok u ∧ _ = Except.ok t := by
    simpa only [Value.tagName, Value.isA_node, hkind, decide_true, if_true, Value.field_node,
      bind_eq_ok_iff] using ht
  have hthroughout {m : Node} (hm : (Value.node m).Throughout Node.Regular Untyped) {name : String}
      {w : Value} (hw : m.field name = .ok w) : w.Throughout Node.Regular Untyped :=
    hm.field (mem_of_get? ((Node.field_eq_ok_iff hm.here.notes).mp hw).2)
  cases v with
  | node o =>
    have ho := hthroughout h hv
    have hwritten := h.here.get?_written_of_field hv
    rw [hkind, show Kind.jsxElement.keyOfField "opening_element" = "openingElement" from rfl,
      hopening, Value.toJson, ho.here.toJson_eq, Option.some.injEq, Json.record.injEq] at hwritten
    subst hwritten
    have hnamed := ho.here.get?_written_of_field hu
    rw [o.kind.keyOfField_name, hname] at hnamed
    have hi := hthroughout ho hu
    cases u with
    | node i =>
      rw [Value.toJson, hi.here.toJson_eq, Option.some.injEq, Json.record.injEq] at hnamed
      subst hnamed
      have hikind : i.kind = .jsxIdentifier := hi.here.kind_of_written .jsxIdentifier rfl hident
      have ht : i.field "name" = .ok t := by simpa [hikind] using ht
      have htext := hi.here.get?_written_of_field ht
      rw [i.kind.keyOfField_name, hspelled, Value.key_eq_ok_iff.mp hs, Value.toJson,
        Option.some.injEq, Json.scalar.injEq] at htext
      rw [← htext, Construct.ofName?_name] at hc
      simp at hc
    | record others =>
      rw [Value.toJson, Option.some.injEq, Json.record.injEq] at hnamed
      subst hnamed
      cases hi with
      | record huntyped => exact Option.some_ne_none _ (hident.symm.trans huntyped)
    | scalar | list => simp [Value.toJson] at hnamed
  | scalar | list | record => simp [Value.field] at hu

/-! ### Expanded documents -/

lemma Node.lasting_regular_and (W : Json → Prop) :
    Node.Lasting fun n => n.Regular ∧ n.origin.ConstructsHave W where
  notes _ h := h.1.notes
  made n h := by
    refine ⟨h.regular, ?_⟩
    rw [h.origin]
    constructor <;> simp
  desugar n h := ⟨h.1.desugar, by rw [Node.origin_desugar]; exact h.2⟩

/-- All constructs in what reading keeps as it is were kept by it. -/
lemma Value.throughout_constructsHave {json : Json} (hjson : json.Distinct) {v : Value}
    (h : Value.ofJson json = .ok v) {W : Json → Prop}
    (hW : ∀ part, json.Keeps part → part.ConstructsHave W) :
    v.Throughout (fun n => n.Regular ∧ n.origin.ConstructsHave W)
      (fun members => Untyped members ∧ (Json.record members).ConstructsHave W) := by
  refine Value.ofJson_throughout (Node.lasting_regular_and W) json (fun members n hreach hn => ?_)
    (fun members hreach htag => ?_) h
  · refine ⟨hn.regular (hjson members hreach.hasPart), hn.constructsHave fun key part hpart hkey => ?_⟩
    refine hW part ⟨members, hreach, .inr ⟨n.kind.tag, key, hn.tag, hpart, ?_⟩⟩
    rw [hn.kind, hkey]
  · exact ⟨htag, hW _ ⟨members, hreach, .inl ⟨htag, rfl⟩⟩⟩

/-- An expanded tree has a document, and every construct in it is within a list in a list, or it stands
in a part that is kept unconverted and stood in such a part of the document that was read. -/
theorem Expand.construct_in_document {json : Json} (hjson : json.Distinct)
    {asked : Topic → Bool} {filename : String} {v v' : Value} (hread : Value.ofJson json = .ok v)
    (h : (Expand.tree asked filename v).toExcept = .ok v') :
    ∃ json', v'.document = .ok json' ∧ ∀ part, json'.HasPart part → part.IsConstruct →
      json'.Nests part ∨ (∃ kept, json'.Keeps kept ∧ kept.HasPart part) ∧
        ∃ kept, json.Keeps kept ∧ kept.HasPart part := by
  have hkept : v'.Throughout _ _ := Expand.throughout_of_tree_eq_ok (Node.lasting_regular_and _) hread h
    (Value.throughout_constructsHave hjson hread fun kept hkept part hpart _ =>
      (⟨kept, hkept, hpart⟩ : ∃ kept, json.Keeps kept ∧ kept.HasPart part))
  have hregular : v'.Throughout Node.Regular Untyped :=
    hkept.imp (fun _ hn => hn.1) fun _ hmembers => hmembers.1
  refine ⟨v'.toJson, hregular.document, fun part hpart hconstruct => ?_⟩
  rcases hkept.construct_in_toJson hpart hconstruct with ⟨m, hm, rfl⟩ | ⟨hbefore, hafter⟩
  · left
    refine (hregular.slot_or_nests hm).resolve_left ?_
    rintro ⟨l, hl, hlm⟩
    obtain ⟨root, rfl, hleft⟩ := Expand.left_of_tree_eq_ok hread h
    obtain rfl : l = root := by simpa [Value.slotNodes] using hl
    exact Node.not_isConstruct_toJson (hregular.part hm) (hleft m hlm).2.1 hconstruct
  · exact .inr ⟨hafter, hbefore⟩

/-- A construct in a list within a list passes through unseen. -/
example : ∃ v v', Value.ofJson (.record [("type", .text "ArrayExpression"), ("elements",
      .list [.list [elementDocument "$let" [("var", "a"), ("value", "b")] "c"]])]) = .ok v ∧
    (Expand.tree (fun _ => false) "a.jsx" v).toExcept = .ok v' ∧ v' = v :=
  ⟨_, _, rfl, rfl, rfl⟩

/-- The document of `<></>` with a member that no fragment has, and in it `<$if test={a}>b</$if>`. -/
def asideDocument : Json :=
  .record [("type", .text "JSXFragment"), ("aside", elementDocument "$if" [("test", "a")] "b"),
    ("openingFragment", .record [("type", .text "JSXOpeningFragment")]), ("children", .list []),
    ("closingFragment", .record [("type", .text "JSXClosingFragment")])]

/-- A pseudo-element under an unknown key of a known kind passes through unseen. -/
theorem Expand.aside_passes_through :
    (∃ v v', Value.ofJson asideDocument = .ok v ∧
      (Expand.tree (fun _ => false) "a.jsx" v).toExcept = .ok v' ∧
      v'.document = .ok asideDocument) ∧
    asideDocument.HasPart (elementDocument "$if" [("test", "a")] "b") ∧
    (elementDocument "$if" [("test", "a")] "b").IsConstruct := by
  refine ⟨⟨_, _, rfl, rfl, rfl⟩, .single (.member (List.mem_cons_of_mem _ List.mem_cons_self)), ?_⟩
  exact ⟨_, _, _, .whenTrue, rfl, rfl, rfl, rfl, rfl, rfl⟩

theorem Expand.aside_construct_in_document :
    ∃ v v', asideDocument.Distinct ∧ Value.ofJson asideDocument = .ok v ∧
      (Expand.tree (fun _ => false) "a.jsx" v).toExcept = .ok v' ∧
      ∃ json', v'.document = .ok json' ∧ ∃ part, json'.HasPart part ∧ part.IsConstruct ∧
        (json'.Nests part ∨ (∃ kept, json'.Keeps kept ∧ kept.HasPart part) ∧
          ∃ kept, asideDocument.Keeps kept ∧ kept.HasPart part) := by
  obtain ⟨v, v', hread, htree, hwritten⟩ : ∃ v v', Value.ofJson asideDocument = .ok v ∧
      (Expand.tree (fun _ => false) "a.jsx" v).toExcept = .ok v' ∧
      v'.document = .ok asideDocument := ⟨_, _, rfl, rfl, rfl⟩
  have hdistinct : asideDocument.Distinct := by simp [asideDocument, elementDocument, names]
  have hpart : asideDocument.HasPart (elementDocument "$if" [("test", "a")] "b") :=
    .single (.member (List.mem_cons_of_mem _ List.mem_cons_self))
  have hconstruct : (elementDocument "$if" [("test", "a")] "b").IsConstruct :=
    ⟨_, _, _, .whenTrue, rfl, rfl, rfl, rfl, rfl, rfl⟩
  obtain ⟨json', hdocument, hall⟩ := construct_in_document hdistinct hread htree
  obtain rfl : asideDocument = json' := Except.ok.inj (hwritten.symm.trans hdocument)
  exact ⟨v, v', hdistinct, hread, htree, _, hdocument, _, hpart, hconstruct,
    hall _ hpart hconstruct⟩

end JsxControl
