import JsxControl.Proofs.Entries
import JsxControl.Proofs.Outcome
import JsxControl.Tree.OfJson
import Mathlib.Logic.Relation

/-!
# Which parts of a document are converted

Reading converts the items of lists and those members of a record with a type tag that are fields of
its kind. All that it comes to in this way is reached; the rest of a document is kept as it is.
`Value.ofJson` is inverted here once for each form of a document.
-/

namespace JsxControl

open Entries

namespace Json

/-! ### Parts -/

/-- An item of a list, or what a member of a record holds. -/
inductive Holds : Json → Json → Prop
  | item {items : List Json} {part : Json} (h : part ∈ items) : Holds (.list items) part
  | member {members : List (String × Json)} {name : String} {part : Json}
      (h : (name, part) ∈ members) : Holds (.record members) part

/-- A part at any depth, the document itself included. -/
def HasPart : Json → Json → Prop := Relation.ReflTransGen Holds

/-- No record at any depth repeats a name. Objects of JSON are maps, so that this says of a document
no more than that it is one. -/
def Distinct (json : Json) : Prop :=
  ∀ members, json.HasPart (.record members) → (names members).Nodup

/-- A part that reading converts on its own: an item of a list, or a member of a record with a type
tag, if it is a field of the kind. -/
inductive Converts : Json → Json → Prop
  | item {items : List Json} {part : Json} (h : part ∈ items) : Converts (.list items) part
  | field {members : List (String × Json)} {tag : Scalar} {key name : String} {part : Json}
      (htag : get? members "type" = some (.scalar tag)) (h : (key, part) ∈ members)
      (hname : (Kind.ofTag tag).fieldOfKey? key = some name) : Converts (.record members) part

/-- A part that reading comes to, the document itself included. -/
def Reaches : Json → Json → Prop := Relation.ReflTransGen Converts

lemma Converts.holds {json part : Json} (h : json.Converts part) : json.Holds part := by
  cases h with
  | item h => exact .item h
  | field _ h => exact .member h

lemma Reaches.hasPart {json part : Json} (h : json.Reaches part) : json.HasPart part :=
  h.lift id fun _ _ hstep => hstep.holds

lemma Distinct.part {json part : Json} (hjson : json.Distinct) (h : json.HasPart part) :
    part.Distinct := fun members hmembers => hjson members (h.trans hmembers)

lemma Distinct.here {members : List (String × Json)} (h : (Json.record members).Distinct) :
    (names members).Nodup := h members .refl

@[simp] lemma distinct_scalar (s : Scalar) : (Json.scalar s).Distinct := by
  intro members h
  obtain h | ⟨part, hstep, -⟩ := h.cases_head
  · simp at h
  · cases hstep

@[simp] lemma distinct_list {items : List Json} :
    (Json.list items).Distinct ↔ ∀ item ∈ items, item.Distinct := by
  refine ⟨fun h item hitem => h.part (.single (.item hitem)), fun h members hmembers => ?_⟩
  obtain heq | ⟨part, hstep, hrest⟩ := hmembers.cases_head
  · simp at heq
  · cases hstep with
    | item hitem => exact h _ hitem members hrest

@[simp] lemma distinct_record {members : List (String × Json)} :
    (Json.record members).Distinct ↔
      (names members).Nodup ∧ ∀ member ∈ members, member.2.Distinct := by
  refine ⟨fun h => ⟨h.here, fun member hmember => h.part (.single (.member hmember))⟩, ?_⟩
  rintro ⟨hnodup, h⟩ others hothers
  obtain heq | ⟨part, hstep, hrest⟩ := hothers.cases_head
  · obtain rfl : members = others := by simpa using heq
    exact hnodup
  · cases hstep with
    | member hmember => exact h _ hmember others hrest

/-! ### Induction on parts -/

lemma Holds.sizeOf_lt {json part : Json} (h : json.Holds part) : sizeOf part < sizeOf json := by
  cases h with
  | item h =>
    have := List.sizeOf_lt_of_mem h
    simp only [Json.list.sizeOf_spec]
    omega
  | member h =>
    have := List.sizeOf_lt_of_mem h
    simp only [Prod.mk.sizeOf_spec, Json.record.sizeOf_spec] at this ⊢
    omega

/-- What holds of a document as soon as it holds of all parts that are converted holds of every
document. -/
lemma conversion_induction {motive : Json → Prop}
    (step : ∀ json, (∀ part, json.Converts part → motive part) → motive json) (json : Json) :
    motive json :=
  step json fun part _ => conversion_induction step part
termination_by sizeOf json
decreasing_by exact Converts.holds ‹_› |>.sizeOf_lt

end Json

/-! ### Reading -/

/-- A member of a document and the field that it becomes. -/
def Kind.Reads (kind : Kind) (member : String × Json) (field : String × Value) : Prop :=
  kind.fieldOfKey? member.1 = some field.1 ∧ Value.ofJson member.2 = .ok field.2

/-- A node that was read from the members of a document. -/
structure Node.ReadFrom (n : Node) (members : List (String × Json)) : Prop where
  tag : get? members "type" = some (.scalar n.kind.tag)
  kind : Kind.ofTag n.kind.tag = n.kind
  loc : Location.ofMembers members = .ok n.origin.loc
  range : Origin.rangeOfMembers members = .ok n.origin.range
  extra : n.origin.extra = n.kind.extraOfMembers members
  notes : n.origin.notes = []
  fields : ∃ given, Value.ofJsonMembers n.kind members = .ok given ∧
    n.kind.arrange given = .ok n.fields

/-- Members that become fields are converted. -/
lemma Node.ReadFrom.converts {n : Node} {members : List (String × Json)} (hn : n.ReadFrom members)
    {member : String × Json} (hmember : member ∈ members) {name : String}
    (hname : n.kind.fieldOfKey? member.1 = some name) :
    (Json.record members).Converts member.2 :=
  .field hn.tag hmember (by rw [hn.kind, hname])

/-- The kind with a type tag has that tag. -/
lemma Kind.tag_ofTag (tag : Scalar) : (Kind.ofTag tag).tag = tag := by
  cases h : known.find? (·.tag = tag) with
  | none => rw [ofTag, h, Option.getD_none, Kind.tag]
  | some kind =>
    rw [ofTag, h, Option.getD_some]
    simpa using List.find?_some h

namespace Value

lemma ofJson_list_eq_ok_iff {items : List Json} {v : Value} :
    ofJson (.list items) = .ok v ↔ ∃ vs, ofJsonItems items = .ok vs ∧ v = .list vs := by
  simp [ofJson, @eq_comm _ v]

/-- A record without a type tag is kept, and any other one becomes a node that is read from it. -/
lemma ofJson_record_eq_ok_iff {members : List (String × Json)} {v : Value} :
    ofJson (.record members) = .ok v ↔
      (get? members "type" = none ∧ v = .record members) ∨
        ∃ n : Node, v = .node n ∧ n.ReadFrom members := by
  constructor
  · intro h
    rw [ofJson] at h
    split at h
    · next htag => exact .inl ⟨htag, by simpa [eq_comm] using h⟩
    · next tag htag =>
      simp only [bind_eq_ok_iff] at h
      obtain ⟨loc, hloc, range, hrange, h⟩ := h
      cases tag with
      | scalar tag =>
        obtain ⟨given, hgiven, fields, hfields, rfl⟩ : ∃ given,
            ofJsonMembers (Kind.ofTag tag) members = .ok given ∧ ∃ fields,
              (Kind.ofTag tag).arrange given = .ok fields ∧
                Value.node ⟨Kind.ofTag tag, fields,
                  { loc, range, extra := (Kind.ofTag tag).extraOfMembers members }⟩ = v := by
          simpa using h
        refine .inr ⟨_, rfl, ?_, ?_, hloc, hrange, rfl, rfl, given, hgiven, hfields⟩
        · rw [htag, Kind.tag_ofTag]
        · rw [Kind.tag_ofTag]
      | list | record => simp at h
  · rintro (⟨htag, rfl⟩ | ⟨⟨kind, fields, origin⟩, rfl, hn⟩)
    · simp [ofJson, htag]
    · obtain ⟨given, hgiven, hfields⟩ := hn.fields
      obtain ⟨loc, range, extra, notes⟩ := origin
      obtain rfl : notes = [] := hn.notes
      have hextra : extra = kind.extraOfMembers members := hn.extra
      rw [ofJson, hn.tag]
      simp only at hgiven hfields
      simp [hn.loc, hn.range, hn.kind, hgiven, hfields, hextra]

lemma ofJsonItems_eq_ok_iff {items : List Json} {vs : List Value} :
    ofJsonItems items = .ok vs ↔ List.Forall₂ (fun item v => ofJson item = .ok v) items vs := by
  induction items generalizing vs with
  | nil => simp [ofJsonItems, eq_comm]
  | cons item rest ih =>
    rw [List.forall₂_cons_left_iff]
    simp [ofJsonItems, ih, @eq_comm _ vs]

/-- The fields that the members of a document become, one by one. -/
lemma ofJsonMembers_eq_ok_iff {kind : Kind} {members : List (String × Json)}
    {given : List (String × Value)} :
    ofJsonMembers kind members = .ok given ↔
      List.Forall₂ kind.Reads (members.filter fun member => (kind.fieldOfKey? member.1).isSome)
        given := by
  induction members generalizing given with
  | nil => simp [ofJsonMembers, eq_comm]
  | cons member rest ih =>
    obtain ⟨key, json⟩ := member
    rw [ofJsonMembers]
    cases hname : kind.fieldOfKey? key with
    | none => simp [hname, ih]
    | some name =>
      rw [List.filter_cons_of_pos (by simp [hname]), List.forall₂_cons_left_iff]
      constructor
      · intro h
        obtain ⟨v, hv, later, hlater, rfl⟩ : ∃ v, ofJson json = .ok v ∧ ∃ later,
            ofJsonMembers kind rest = .ok later ∧ (name, v) :: later = given := by
          simpa using h
        exact ⟨(name, v), later, ⟨hname, hv⟩, ih.mp hlater, rfl⟩
      · rintro ⟨⟨name', v⟩, later, ⟨hname', hv⟩, hlater, rfl⟩
        obtain rfl : name = name' := Option.some.inj (hname.symm.trans hname')
        have hv : ofJson json = .ok v := hv
        simp [hv, ih.mpr hlater]

/-- Every field that was given was converted from a member of the document. -/
lemma exists_of_mem_given {kind : Kind} {members : List (String × Json)}
    {given : List (String × Value)} (h : ofJsonMembers kind members = .ok given)
    {field : String × Value} (hfield : field ∈ given) :
    ∃ member ∈ members, kind.Reads member field := by
  rw [ofJsonMembers_eq_ok_iff] at h
  obtain ⟨member, hmember, hreads⟩ := exists_of_mem_right_of_forall₂ h hfield
  exact ⟨member, List.mem_of_mem_filter hmember, hreads⟩

end Value

end JsxControl
