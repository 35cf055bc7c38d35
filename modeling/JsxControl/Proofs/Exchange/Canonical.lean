import JsxControl.Proofs.Exchange.Readable
import JsxControl.Proofs.Exchange.Rereading

/-!
# Canonical documents

A document may spell a field in several ways, leave fields out and give location data in more than
one form. In a *canonical* document every field is there under its own key and location data have
the form in which they are written. Such a document is read, and written again as it was; only the
order of the members may be another. What is not converted may be any document.
-/

namespace JsxControl

open Entries

namespace Json

/-! ### Equality up to the order of members -/

/-- Two documents are the same if the order in which records have their members does not count. -/
inductive Same : Json → Json → Prop
  | scalar (s : Scalar) : Same (.scalar s) (.scalar s)
  | list {items items' : List Json} (h : List.Forall₂ Same items items') :
    Same (.list items) (.list items')
  | record {members members' : List (String × Json)}
      (h : ∀ name, Option.Rel Same (get? members name) (get? members' name)) :
    Same (.record members) (.record members')

lemma Same.refl (json : Json) : json.Same json := by
  match json with
  | .scalar s => exact .scalar s
  | .list items =>
    refine .list (List.forall₂_same.mpr fun item hitem => ?_)
    exact Same.refl item
  | .record members =>
    refine .record fun name => ?_
    cases hmember : get? members name with
    | none => exact .none
    | some part => exact .some (Same.refl part)
termination_by sizeOf json
decreasing_by
  · exact Holds.sizeOf_lt (.item hitem)
  · exact Holds.sizeOf_lt (.member (mem_of_get? hmember))

lemma Same.refl_option (json? : Option Json) : Option.Rel Same json? json? := by
  cases json? with
  | none => exact .none
  | some json => exact .some (.refl json)

/-! ### Location data -/

/-- A point in the form in which points are written. -/
def IsPoint (json : Json) : Prop :=
  ∃ members, json = .record members ∧ ((∀ key, key ∈ names members ↔ key ∈ ["line", "column"]) ∨
    ((∀ key, key ∈ names members ↔ key ∈ ["line", "column", "offset"]) ∧
      get? members "offset" ≠ some .null))

/-- A location in the form in which locations are written. -/
def IsLocation (json : Json) : Prop :=
  ∃ members, json = .record members ∧ (∀ key, key ∈ names members ↔ key ∈ ["start", "end"]) ∧
    ∀ part ∈ members, part.2.IsPoint

/-- A range in the form in which ranges are written. -/
def IsRange (json : Json) : Prop := ∃ start stop, json = .list [start, stop]

/-! ### Documents -/

/-- A record with a type tag has every field of its kind under the key of the field, and no field
under another key; its location data have the form in which they are written; and it has a range if
it has two ends of one. -/
structure CanonicalNode (kind : Kind) (members : List (String × Json)) : Prop where
  complete : kind.isOther = false → ∀ name ∈ kind.fieldNames, kind.keyOfField name ∈ names members
  spells : kind.Spells members
  loc : ∀ loc, get? members "loc" = some loc → loc.IsLocation
  range : ∀ range, get? members "range" = some range → range.IsRange
  ranged : get? members "range" = none → Origin.Unbounded members

/-- Every record with a type tag that reading comes to is canonical. -/
def Canonical (json : Json) : Prop :=
  ∀ members tag, json.Reaches (.record members) → get? members "type" = some tag →
    ∃ s, tag = .scalar s ∧ CanonicalNode (Kind.ofTag s) members

@[simp] lemma canonical_scalar (s : Scalar) : (Json.scalar s).Canonical := by
  intro members tag h
  obtain h | ⟨part, hstep, -⟩ := h.cases_head
  · simp at h
  · cases hstep

@[simp] lemma canonical_list {items : List Json} :
    (Json.list items).Canonical ↔ ∀ item ∈ items, item.Canonical := by
  constructor
  · exact fun h item hitem members tag hreach => h members tag (.head (.item hitem) hreach)
  · intro h members tag hreach
    obtain heq | ⟨part, hstep, hrest⟩ := hreach.cases_head
    · simp at heq
    · cases hstep with
      | item hitem => exact h _ hitem members tag hrest

/-- Nothing is asked of a record without a type tag. -/
lemma canonical_untyped {members : List (String × Json)} (htag : get? members "type" = none) :
    (Json.record members).Canonical := by
  intro others tag hreach hother
  obtain heq | ⟨part, hstep, -⟩ := hreach.cases_head
  · obtain rfl : members = others := by simpa using heq
    simp [htag] at hother
  · cases hstep with
    | field htag' => simp [htag] at htag'

/-- A record is canonical if it is so itself and all that is converted of it is. -/
lemma canonical_record {members : List (String × Json)} {s : Scalar}
    (htag : get? members "type" = some (.scalar s)) (h : CanonicalNode (Kind.ofTag s) members)
    (hfields : ∀ member ∈ members, ((Kind.ofTag s).fieldOfKey? member.1).isSome →
      member.2.Canonical) : (Json.record members).Canonical := by
  intro others tag hreach hother
  obtain heq | ⟨part, hstep, hrest⟩ := hreach.cases_head
  · obtain rfl : members = others := by simpa using heq
    exact ⟨s, Option.some.inj (hother.symm.trans htag), h⟩
  · cases hstep with
    | @field _ s' key name _ htag' hmember hname =>
      obtain rfl : s = s' := by simpa [htag] using htag'
      exact hfields (key, part) hmember (by simp [hname]) others tag hrest hother

lemma Canonical.part {json part : Json} (h : json.Canonical) (hpart : json.Converts part) :
    part.Canonical := fun members tag hreach => h members tag (.head hpart hreach)

end Json

/-! ### Location data -/

/-- Records with the same keys are the same if they have the same under each of them. -/
lemma Json.Same.of_keys {members members' : List (String × Json)} (keys : List String)
    (hkeys : ∀ key ∈ names members, key ∈ keys) (hkeys' : ∀ key ∈ names members', key ∈ keys)
    (h : ∀ key ∈ keys, Option.Rel Same (get? members key) (get? members' key)) :
    (Json.record members).Same (.record members') := by
  refine .record fun key => ?_
  by_cases hkey : key ∈ keys
  · exact h key hkey
  · rw [get?_eq_none_iff.mpr fun hmem => hkey (hkeys key hmem),
      get?_eq_none_iff.mpr fun hmem => hkey (hkeys' key hmem)]
    exact .none

lemma Position.ofJson_of_isPoint {json : Json} (h : json.IsPoint) :
    ∃ p, Position.ofJson json = .ok p ∧ json.Same p.toJson := by
  obtain ⟨members, rfl, hkeys⟩ := h
  have hpoint : "line" ∈ names members ∧ "column" ∈ names members := by
    rcases hkeys with h | ⟨h, -⟩ <;> simp [h]
  obtain ⟨line, hline⟩ := exists_get?_of_mem_names hpoint.1
  obtain ⟨column, hcolumn⟩ := exists_get?_of_mem_names hpoint.2
  have hread : Position.ofJson (.record members) =
      .ok ⟨line, column, (get? members "offset").getD .null⟩ := by
    cases hoffset : get? members "offset" <;>
      simp [Position.ofJson, Json.member, hline, hcolumn, hoffset, Except.toOption]
  refine ⟨_, hread, ?_⟩
  rcases hkeys with hkeys | ⟨hkeys, hoffset⟩
  · have hnone : get? members "offset" = none := get?_eq_none_iff.mpr (by simp [hkeys])
    rw [hnone, toJson]
    apply Json.Same.of_keys ["line", "column"] fun key hkey => (hkeys key).mp hkey
    · simp [names]
    · simp [get?_cons, hline, hcolumn, Json.Same.refl]
  · obtain ⟨offset, hsome⟩ := exists_get?_of_mem_names ((hkeys "offset").mpr (by simp))
    have hwritten : (Position.mk line column offset).toJson =
        .record [("line", line), ("column", column), ("offset", offset)] := by
      rw [toJson]
      split
      · next hnull =>
        obtain rfl : offset = .null := hnull
        exact absurd hsome hoffset
      · rfl
    rw [hsome, Option.getD_some, hwritten]
    apply Json.Same.of_keys ["line", "column", "offset"] fun key hkey => (hkeys key).mp hkey
    · simp [names]
    · simp [get?_cons, hline, hcolumn, hsome, Json.Same.refl]

lemma Location.ofMembers_of_isLocation {members : List (String × Json)} {loc : Json}
    (hloc : get? members "loc" = some loc) (h : loc.IsLocation) :
    ∃ l, Location.ofMembers members = .ok (some l) ∧ loc.Same l.toJson := by
  obtain ⟨parts, rfl, hkeys, hpoints⟩ := h
  obtain ⟨start, hstart⟩ := exists_get?_of_mem_names ((hkeys "start").mpr (by simp))
  obtain ⟨stop, hstop⟩ := exists_get?_of_mem_names ((hkeys "end").mpr (by simp))
  obtain ⟨p, hp, hsame⟩ := Position.ofJson_of_isPoint (hpoints _ (mem_of_get? hstart))
  obtain ⟨q, hq, hsame'⟩ := Position.ofJson_of_isPoint (hpoints _ (mem_of_get? hstop))
  refine ⟨⟨p, q⟩, ?_, ?_⟩
  · simp [ofMembers, hloc, Json.member, hstart, hstop, hp, hq]
  · apply Json.Same.of_keys ["start", "end"] fun key hkey => (hkeys key).mp hkey
    · simp [names]
    · simp [get?_cons, hstart, hstop, hsame, hsame']

/-! ### Reading -/

/-- A node whose fields are all there can be read if what they hold can. -/
lemma Json.CanonicalNode.exists_fields {kind : Kind} {members : List (String × Json)}
    (h : CanonicalNode kind members)
    (hread : ∀ member ∈ members, (kind.fieldOfKey? member.1).isSome →
      ∃ v, Value.ofJson member.2 = .ok v) :
    ∃ given, Value.ofJsonMembers kind members = .ok given ∧
      ∃ fields, kind.arrange given = .ok fields := by
  have hmembers : ¬ Fails (Value.ofJsonMembers kind members) := by
    rw [Value.fails_ofJsonMembers_iff]
    rintro ⟨member, hmember, hname, hfails⟩
    obtain ⟨v, hv⟩ := hread member hmember hname
    exact not_fails_ok v (hv ▸ hfails)
  obtain ⟨given, hgiven⟩ := not_fails_iff.mp hmembers
  refine ⟨given, hgiven, not_fails_iff.mp ?_⟩
  rw [Kind.fails_arrange_iff]
  rintro ⟨spec, hspec, -, hmissing⟩
  have hother : kind.isOther = false := by
    cases kind <;> first | rfl | simp [Kind.layout] at hspec
  have hname : spec.name ∈ kind.fieldNames := List.mem_map_of_mem hspec
  exact hmissing ((Value.mem_names_given hgiven).mpr
    ⟨_, h.complete hother _ hname, Kind.fieldOfKey?_keyOfField hname⟩)

/-- The members of a canonical record can be read as a node. -/
lemma Json.CanonicalNode.exists_readFrom {s : Scalar} {members : List (String × Json)}
    (htag : get? members "type" = some (.scalar s)) (h : CanonicalNode (Kind.ofTag s) members)
    (hread : ∀ member ∈ members, ((Kind.ofTag s).fieldOfKey? member.1).isSome →
      ∃ v, Value.ofJson member.2 = .ok v) :
    ∃ n : Node, n.kind = Kind.ofTag s ∧ n.ReadFrom members ∧
      Option.Rel Same (get? members "loc") (n.origin.loc.map Location.toJson) ∧
      Option.Rel Same (get? members "range")
        (n.origin.range.map fun range => .list [range.1, range.2]) := by
  obtain ⟨given, hgiven, fields, hfields⟩ := h.exists_fields hread
  obtain ⟨loc, hloc, hlocSame⟩ : ∃ loc, Location.ofMembers members = .ok loc ∧
      Option.Rel Same (get? members "loc") (loc.map Location.toJson) := by
    cases hloc : get? members "loc" with
    | none => exact ⟨none, by rw [Location.ofMembers, hloc], .none⟩
    | some loc =>
      obtain ⟨l, hl, hsame⟩ := Location.ofMembers_of_isLocation hloc (h.loc loc hloc)
      exact ⟨some l, hl, .some hsame⟩
  obtain ⟨range, hrange, hrangeSame⟩ : ∃ range, Origin.rangeOfMembers members = .ok range ∧
      Option.Rel Same (get? members "range")
        (range.map fun range => .list [range.1, range.2]) := by
    cases hrange : get? members "range" with
    | none => exact ⟨none, Origin.rangeOfMembers_eq_ok hrange fun _ => h.ranged hrange, .none⟩
    | some range =>
      obtain ⟨start, stop, rfl⟩ := h.range range hrange
      refine ⟨some (start, stop), Origin.rangeOfMembers_eq_ok hrange (by simp), .some (.refl _)⟩
  refine ⟨⟨Kind.ofTag s, fields,
    { loc, range, extra := (Kind.ofTag s).extraOfMembers members }⟩, rfl, ?_, hlocSame, hrangeSame⟩
  refine ⟨?_, ?_, hloc, hrange, rfl, rfl, given, hgiven, hfields⟩
  · rw [htag, Kind.tag_ofTag]
  · rw [Kind.tag_ofTag]

/-- A canonical record is written as it was read if the same is true of what its fields hold. -/
lemma Json.CanonicalNode.same_written {members : List (String × Json)} {n : Node}
    (h : CanonicalNode n.kind members) (hn : n.ReadFrom members) (hnodup : (names members).Nodup)
    (hloc : Option.Rel Same (get? members "loc") (n.origin.loc.map Location.toJson))
    (hrange : Option.Rel Same (get? members "range")
      (n.origin.range.map fun range => .list [range.1, range.2]))
    (hfields : ∀ member ∈ members, (n.kind.fieldOfKey? member.1).isSome →
      ∀ v, Value.ofJson member.2 = .ok v → member.2.Same v.toJson) :
    (Json.record members).Same n.toJson := by
  have hregular := hn.regular hnodup
  rw [hregular.toJson_eq]
  refine .record fun key => ?_
  by_cases hreserved : key ∈ Kind.reservedKeys
  · obtain rfl | rfl | rfl : key = "type" ∨ key = "loc" ∨ key = "range" := by
      simpa [Kind.reservedKeys] using hreserved
    · rw [hn.tag, Node.Regular.get?_written_type]
      exact .some (.refl _)
    · rwa [hregular.get?_written_loc]
    · rwa [hregular.get?_written_range]
  · rw [hregular.get?_written hreserved]
    cases hname : n.kind.fieldOfKey? key with
    | none =>
      rw [hn.get?_members_of_apart hnodup hreserved hname]
      exact Same.refl_option _
    | some name =>
      cases hjson : get? members key with
      | none =>
        have hwritten : get? n.members key = none := get?_eq_none_iff.mpr fun hmem =>
          get?_eq_none_iff.mp hjson (hn.names_members_subset hnodup h.complete hmem)
        rw [hwritten]
        exact .none
      | some json =>
        obtain ⟨v, hv, hwritten⟩ := hn.get?_members_of_field hnodup h.spells hname hjson
        rw [hwritten]
        exact .some (hfields (key, json) (mem_of_get? hjson) (by simp [hname]) v hv)

/-- A canonical document is read, and what it is read as is written as it was. -/
lemma Json.Canonical.same_toJson (json : Json) (hdistinct : json.Distinct) (h : json.Canonical) :
    ∃ v, Value.ofJson json = .ok v ∧ json.Same v.toJson := by
  induction json using Json.conversion_induction with
  | step json ih =>
    have hpart (part : Json) (hstep : json.Converts part) :
        ∃ v, Value.ofJson part = .ok v ∧ part.Same v.toJson :=
      ih part hstep (hdistinct.part (.single hstep.holds)) (h.part hstep)
    cases json with
    | scalar s => exact ⟨.scalar s, by rw [Value.ofJson], by rw [Value.toJson]; exact .scalar s⟩
    | list items =>
      choose! read hread using fun item hitem => hpart item (.item hitem)
      refine ⟨.list (items.map read), Value.ofJson_list_eq_ok_iff.mpr ⟨_, ?_, rfl⟩, ?_⟩
      · rw [Value.ofJsonItems_eq_ok_iff, List.forall₂_map_right_iff, List.forall₂_same]
        exact fun item hitem => (hread item hitem).1
      · rw [Value.toJson, Value.toJsonItems_eq_map, List.map_map]
        refine .list ?_
        rw [List.forall₂_map_right_iff, List.forall₂_same]
        exact fun item hitem => (hread item hitem).2
    | record members =>
      cases htag : get? members "type" with
      | none =>
        refine ⟨.record members, Value.ofJson_record_eq_ok_iff.mpr (.inl ⟨htag, rfl⟩), ?_⟩
        rw [Value.toJson]
        exact .refl _
      | some tag =>
        obtain ⟨s, rfl, hnode⟩ := h members tag .refl htag
        have hfield (member) (hmember : member ∈ members)
            (hname : ((Kind.ofTag s).fieldOfKey? member.1).isSome) :
            ∃ v, Value.ofJson member.2 = .ok v ∧ member.2.Same v.toJson := by
          obtain ⟨name, hname⟩ := Option.isSome_iff_exists.mp hname
          exact hpart member.2 (.field htag hmember hname)
        obtain ⟨n, hkind, hn, hloc, hrange⟩ := hnode.exists_readFrom htag
          fun member hmember hname => (hfield member hmember hname).imp fun _ => And.left
        rw [← hkind] at hnode hfield
        refine ⟨.node n, Value.ofJson_record_eq_ok_iff.mpr (.inr ⟨n, rfl, hn⟩), ?_⟩
        rw [Value.toJson]
        refine hnode.same_written hn hdistinct.here hloc hrange fun member hmember hname v hv => ?_
        obtain ⟨u, hu, hsame⟩ := hfield member hmember hname
        obtain rfl : u = v := Except.ok.inj (hu.symm.trans hv)
        exact hsame

/-- Writing undoes reading on canonical documents, up to the order of members. -/
theorem Json.Canonical.written_same {json : Json} (hdistinct : json.Distinct)
    (h : json.Canonical) : ∃ v json', Value.ofJson json = .ok v ∧ v.document = .ok json' ∧
      json.Same json' := by
  obtain ⟨v, hv, hsame⟩ := h.same_toJson json hdistinct
  exact ⟨v, v.toJson, hv, (Value.throughout_regular hdistinct hv).document, hsame⟩

/-- The members of a text that was read at a known place and bears a note. The note looks like a node
that no reading accepts, but it is no field and stays as it is. -/
def notedText : List (String × Json) :=
  let point (column : Int) : Json := .record [("column", .int column), ("line", .int 1)]
  [("loc", .record [("end", point 1), ("start", point 0)]), ("range", .list [.int 0, .int 1]),
    ("raw", .null), ("value", .text "b"), ("x-note", .record [("type", .list [])]),
    ("type", .text "JSXText")]

/-- A node of an unknown kind that holds a text and a record without a type tag. -/
def notedDocument : Json :=
  .record [("parts", .list [.record notedText, .record [("x", .list [])]]),
    ("type", .text "Quote")]

lemma notedText_canonical : Json.CanonicalNode .jsxText notedText where
  complete _ := by decide
  spells := by
    have hall : (names notedText).all fun key => (Kind.jsxText.fieldOfKey? key).all fun name =>
        key = Kind.jsxText.keyOfField name := by decide
    intro key hkey name hname
    simpa [hname] using List.all_eq_true.mp hall key hkey
  loc loc hloc := by
    obtain rfl := Option.some.inj hloc
    refine ⟨_, rfl, by simp [names, or_comm], ?_⟩
    simp only [List.forall_mem_cons]
    refine ⟨⟨_, rfl, .inl ?_⟩, ⟨_, rfl, .inl ?_⟩, by simp⟩ <;> simp [names, or_comm]
  range range hrange := by
    obtain rfl := Option.some.inj hrange
    exact ⟨_, _, rfl⟩
  ranged hnone := by simp [notedText, get?_cons] at hnone

theorem notedDocument_written_same : notedDocument.Distinct ∧ notedDocument.Canonical ∧
    ∃ v json', Value.ofJson notedDocument = .ok v ∧ v.document = .ok json' ∧
      notedDocument.Same json' := by
  have hdistinct : notedDocument.Distinct := by simp [notedDocument, notedText, names]
  have htext : (Json.record notedText).Canonical := by
    refine Json.canonical_record rfl notedText_canonical ?_
    simp only [notedText, List.forall_mem_cons]
    refine ⟨fun h => absurd h (by decide), fun _ => ?_, fun _ => ?_, fun _ => ?_,
      fun h => absurd h (by decide), fun h => absurd h (by decide), by simp⟩ <;> simp
  have hkind : Kind.ofTag (.text "Quote") = .other (.text "Quote") := by decide
  have hcanonical : notedDocument.Canonical := by
    refine Json.canonical_record rfl ?_ ?_
    · rw [hkind]
      exact ⟨by simp [Kind.isOther], Kind.spells_of_isOther rfl _, by simp [get?_cons],
        by simp [get?_cons], fun _ => .inl (by simp [get?_cons])⟩
    · simp [htext, Json.canonical_untyped, get?_cons]
  exact ⟨hdistinct, hcanonical, hcanonical.written_same hdistinct⟩

end JsxControl
