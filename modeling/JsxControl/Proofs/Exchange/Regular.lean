import JsxControl.Proofs.Exchange.Throughout
import JsxControl.Proofs.FieldName
import JsxControl.Tree.ToJson

/-!
# Regular nodes

A node can be told from its document if its kind is the one of its tag, and if the names of its
fields, of what was kept apart and of its location data do not collide: such a node is *regular*. A
tree in which all nodes are regular reads back from its document.
-/

namespace JsxControl

open Entries

/-! ### Keys of fields -/

namespace Kind

variable {kind : Kind}

lemma ofTag_tag (h : kind.isOther = false) : ofTag kind.tag = kind := by
  cases kind <;> first | decide | simp [isOther] at h

lemma not_reserved_of_fieldOfKey? {key name : String} (h : kind.fieldOfKey? key = some name) :
    key ∉ reservedKeys := by
  intro hmem
  simp [fieldOfKey?, hmem] at h

/-- A member of a known kind is a field if its lower-case spelling is the name of one. -/
lemma fieldOfKey?_of_known (h : kind.isOther = false) (key : String) :
    kind.fieldOfKey? key = if reservedKeys.contains key then none
      else if kind.fieldNames.contains (FieldName.ofKey key) then some (FieldName.ofKey key)
      else none := by
  cases kind <;> first | rfl | simp [isOther] at h

/-- Every member of an unknown kind is a field under its own name, unless it is reserved. -/
lemma fieldOfKey?_of_isOther (h : kind.isOther = true) {key : String} (hkey : key ∉ reservedKeys) :
    kind.fieldOfKey? key = some key := by
  cases kind <;> simp [isOther] at h
  simp [fieldOfKey?, hkey]

lemma fieldOfKey?_eq_some_of_isOther (h : kind.isOther = true) {key name : String}
    (hname : kind.fieldOfKey? key = some name) : name = key := by
  rw [fieldOfKey?_of_isOther h (not_reserved_of_fieldOfKey? hname)] at hname
  exact (Option.some.inj hname).symm

lemma keyOfField_of_isOther (h : kind.isOther = true) (name : String) :
    kind.keyOfField name = name := by
  simp [keyOfField, h]

/-- The keys of location data are their own lower-case spellings. -/
lemma ofKey_location : ∀ key ∈ ["type", "loc", "range", "start", "end"],
    FieldName.ofKey key = key := by
  simp only [List.forall_mem_cons]
  exact ⟨rfl, rfl, rfl, rfl, rfl, by simp⟩

/-- No field of a known kind is called like location data. -/
lemma not_mem_fieldNames : ∀ key ∈ ["type", "loc", "range", "start", "end"],
    key ∉ kind.fieldNames := by
  simp only [List.forall_mem_cons]
  cases kind <;> simp [fieldNames, layout, FieldSpec.required, FieldSpec.optional]

/-- The fields of the known kinds are named in lower case. -/
lemma isSnake_of_mem_fieldNames : ∀ name ∈ kind.fieldNames, FieldName.IsSnake name.toList := by
  cases kind with
  | other => simp [fieldNames, layout]
  | _ => decide

/-- The lower-case spelling of the key of a field is the name of the field. -/
lemma ofKey_toKey : ∀ name ∈ kind.fieldNames, FieldName.ofKey (FieldName.toKey name) = name :=
  fun name hname => FieldName.ofKey_toKey (isSnake_of_mem_fieldNames name hname)

/-- The key of a field is read as this field. -/
lemma fieldOfKey?_keyOfField {name : String} (hname : name ∈ kind.fieldNames) :
    kind.fieldOfKey? (kind.keyOfField name) = some name := by
  have hknown : kind.isOther = false := by
    cases kind <;> first | rfl | simp [fieldNames, layout] at hname
  have hreserved : FieldName.toKey name ∉ reservedKeys := by
    intro hmem
    have hlocation : FieldName.toKey name ∈ ["type", "loc", "range", "start", "end"] :=
      List.mem_append_left ["start", "end"] hmem
    have hspelled := ofKey_location _ hlocation
    rw [ofKey_toKey name hname] at hspelled
    exact not_mem_fieldNames _ hlocation (hspelled ▸ hname)
  simp [fieldOfKey?_of_known hknown, keyOfField, hknown, hreserved, ofKey_toKey name hname, hname]

/-- No known kind has a field for an end of a range. -/
lemma fieldOfKey?_ends (h : kind.isOther = false) :
    kind.fieldOfKey? "start" = none ∧ kind.fieldOfKey? "end" = none := by
  have hnone : ∀ key ∈ ["type", "loc", "range", "start", "end"], kind.fieldOfKey? key = none := by
    intro key hkey
    simp [fieldOfKey?_of_known h, ofKey_location key hkey, not_mem_fieldNames key hkey]
  exact ⟨hnone _ (by simp), hnone _ (by simp)⟩

/-- Each member that becomes a field is spelled as the kind spells the field. -/
def Spells (kind : Kind) (members : List (String × Json)) : Prop :=
  ∀ key ∈ names members, ∀ name, kind.fieldOfKey? key = some name → key = kind.keyOfField name

lemma spells_of_isOther (h : kind.isOther = true) (members : List (String × Json)) :
    kind.Spells members := by
  intro key _ name hname
  rw [keyOfField_of_isOther h, fieldOfKey?_eq_some_of_isOther h hname]

end Kind

/-! ### Location data -/

lemma Position.ofJson_toJson (p : Position) : Position.ofJson p.toJson = .ok p := by
  obtain ⟨line, column, offset⟩ := p
  rw [Position.toJson]
  split
  · next h =>
    obtain rfl : offset = .null := h
    rfl
  · rfl

lemma Location.ofMembers_eq_ok {members : List (String × Json)} {loc : Option Location}
    (h : get? members "loc" = loc.map Location.toJson) : Location.ofMembers members = .ok loc := by
  rw [ofMembers, h]
  cases loc with
  | none => rfl
  | some loc =>
    have hstart : (Json.record [("start", loc.start.toJson), ("end", loc.stop.toJson)]).member
        "start" = .ok loc.start.toJson := rfl
    have hstop : (Json.record [("start", loc.start.toJson), ("end", loc.stop.toJson)]).member
        "end" = .ok loc.stop.toJson := rfl
    simp [toJson, hstart, hstop, Position.ofJson_toJson]

namespace Origin

variable {members : List (String × Json)}

/-- There are no two ends that a range could be read from. -/
def Unbounded (members : List (String × Json)) : Prop :=
  (get? members "start").bind Json.int? = none ∨ (get? members "end").bind Json.int? = none

/-- The range that is read where none is given. -/
lemma rangeOfEnds_eq_none_iff :
    (match get? members "start", get? members "end" with
      | some start, some stop =>
        pure (if start.int?.isSome && stop.int?.isSome then some (start, stop) else none)
      | _, _ => pure none : Except Fault (Option (Json × Json))) = .ok none ↔ Unbounded members := by
  rw [Unbounded]
  cases get? members "start" with
  | none => simp
  | some start =>
    cases get? members "end" with
    | none => simp
    | some stop => cases hs : start.int? <;> cases he : stop.int? <;> simp [hs, he]

/-- Only a document that gives no range, and no two ends of one, is read without a range. -/
lemma unbounded_of_rangeOfMembers (h : rangeOfMembers members = .ok none) : Unbounded members := by
  rw [rangeOfMembers] at h
  split at h
  · exact rangeOfEnds_eq_none_iff.mp h
  · exact rangeOfEnds_eq_none_iff.mp h
  · obtain ⟨parts, -, h⟩ := bind_eq_ok_iff.mp h
    split at h <;> simp at h

/-- A range that is read has the two ends that the document gives, or is made of two integers. -/
lemma ends_of_rangeOfMembers {start stop : Json}
    (h : rangeOfMembers members = .ok (some (start, stop))) :
    (∃ range, get? members "range" = some range ∧ range.parts = .ok [start, stop]) ∨
      start.int?.isSome ∧ stop.int?.isSome := by
  have hends (h : (match get? members "start", get? members "end" with
      | some start, some stop =>
        pure (if start.int?.isSome && stop.int?.isSome then some (start, stop) else none)
      | _, _ => pure none : Except Fault (Option (Json × Json))) = .ok (some (start, stop))) :
      start.int?.isSome ∧ stop.int?.isSome := by
    split at h
    · split_ifs at h with hints
      · obtain ⟨rfl, rfl⟩ : _ = start ∧ _ = stop := by simpa using h
        simpa using hints
      · simp at h
    · simp at h
  rw [rangeOfMembers] at h
  split at h
  · exact .inr (hends h)
  · exact .inr (hends h)
  · next range _ hrange =>
    obtain ⟨parts, hparts, h⟩ := bind_eq_ok_iff.mp h
    split at h
    · obtain ⟨rfl, rfl⟩ : _ = start ∧ _ = stop := by simpa using h
      exact .inl ⟨range, hrange, hparts⟩
    · simp at h

lemma rangeOfMembers_eq_ok {range : Option (Json × Json)}
    (h : get? members "range" = range.map fun range => .list [range.1, range.2])
    (hnone : range = none → Unbounded members) : rangeOfMembers members = .ok range := by
  cases range with
  | none =>
    rw [rangeOfMembers, h]
    exact rangeOfEnds_eq_none_iff.mpr (hnone rfl)
  | some range =>
    rw [rangeOfMembers, h]
    rfl

end Origin

/-! ### Documents of nodes -/

lemma Value.toJsonFields_eq_map (kind : Kind) (fields : List (String × Value)) :
    Value.toJsonFields kind fields =
      fields.map fun entry => (kind.keyOfField entry.1, entry.2.toJson) := by
  induction fields with
  | nil => rw [Value.toJsonFields, List.map_nil]
  | cons entry rest ih =>
    obtain ⟨name, v⟩ := entry
    rw [Value.toJsonFields, ih, List.map_cons]

lemma Value.toJsonItems_eq_map (items : List Value) :
    Value.toJsonItems items = items.map Value.toJson := by
  induction items with
  | nil => rw [Value.toJsonItems, List.map_nil]
  | cons item rest ih => rw [Value.toJsonItems, ih, List.map_cons]

/-- The members of the document of a node that say neither what it is nor where it was read. -/
def Node.members (n : Node) : List (String × Json) :=
  n.origin.extra ++ n.fields.map fun entry => (n.kind.keyOfField entry.1, entry.2.toJson)

/-- What a field holds is written under the key of the field. -/
lemma Node.mem_members {n : Node} {entry : String × Value} (h : entry ∈ n.fields) :
    (n.kind.keyOfField entry.1, entry.2.toJson) ∈ n.members :=
  List.mem_append_right _ (List.mem_map_of_mem h)

/-- All members of the document of a node, unless some of them have one name. -/
def Node.written (n : Node) : List (String × Json) :=
  ("type", .scalar n.kind.tag) :: (n.members ++ n.origin.locationMembers)

lemma Node.names_members (n : Node) :
    names n.members = names n.origin.extra ++ (names n.fields).map n.kind.keyOfField := by
  simp [members, names]

lemma Origin.locationMembers_eq {o : Origin} (h : o.notes = []) :
    o.locationMembers = (o.loc.toList.map fun loc => ("loc", loc.toJson))
      ++ o.range.toList.map fun range => ("range", .list [range.1, range.2]) := by
  rw [locationMembers, location, rangeItems, note?, note?, h]
  cases o.loc <;> cases o.range <;> rfl

/-- Location data are members that no field and no member kept apart can be. -/
lemma Origin.names_locationMembers {o : Origin} (h : o.notes = []) :
    (names o.locationMembers).Sublist ["loc", "range"] := by
  rw [locationMembers_eq h]
  cases o.loc <;> cases o.range <;> simp [names]

lemma Node.toJson_eq {n : Node} (h : n.origin.notes = []) :
    n.toJson = .record (putAll [("type", .scalar n.kind.tag)]
      (n.members ++ n.origin.locationMembers)) := by
  obtain ⟨kind, fields, origin⟩ := n
  have hextra : origin.extraMembers = .ok origin.extra := by
    rw [Origin.extraMembers, Origin.note?, h]
    rfl
  rw [Node.toJson, Value.toJsonFields_eq_map, hextra]
  rfl

/-! ### Regular nodes -/

/-- A node that its document tells of. -/
structure Node.Regular (n : Node) : Prop where
  notes : n.origin.notes = []
  kind : Kind.ofTag n.kind.tag = n.kind
  fieldNames : n.kind.isOther = false → names n.fields = n.kind.fieldNames
  nodup : (names n.fields).Nodup
  spelled : ∀ name ∈ names n.fields, n.kind.fieldOfKey? (n.kind.keyOfField name) = some name
  nodupApart : (names n.origin.extra).Nodup
  apart : ∀ key ∈ names n.origin.extra, key ∉ Kind.reservedKeys ∧ n.kind.fieldOfKey? key = none
  unranged : n.origin.range = none → Origin.Unbounded n.members

namespace Node.Regular

variable {n : Node}

lemma not_reserved (h : n.Regular) {key : String} (hkey : key ∈ names n.members) :
    key ∉ Kind.reservedKeys := by
  rw [names_members, List.mem_append] at hkey
  rcases hkey with hkey | hkey
  · exact (h.apart key hkey).1
  · obtain ⟨name, hname, rfl⟩ := List.mem_map.mp hkey
    exact Kind.not_reserved_of_fieldOfKey? (h.spelled name hname)

lemma get?_members_of_reserved (h : n.Regular) {key : String} (hkey : key ∈ Kind.reservedKeys) :
    get? n.members key = none :=
  get?_eq_none_iff.mpr fun hmem => h.not_reserved hmem hkey

lemma nodup_members (h : n.Regular) : (names n.members).Nodup := by
  rw [names_members, List.nodup_append]
  refine ⟨h.nodupApart, ?_, ?_⟩
  · refine List.Nodup.map_on (fun name hname name' hname' heq => ?_) h.nodup
    have hsome := h.spelled name hname
    rw [heq, h.spelled name' hname'] at hsome
    exact (Option.some.inj hsome).symm
  · rintro key hkey _ hfield rfl
    obtain ⟨name, hname, rfl⟩ := List.mem_map.mp hfield
    simpa [(h.apart _ hkey).2] using h.spelled name hname

lemma disjoint_locationMembers (h : n.Regular) {key : String} (hkey : key ∈ names n.members) :
    key ∉ names n.origin.locationMembers := by
  intro hmem
  have hloc := (Origin.names_locationMembers h.notes).subset hmem
  exact h.not_reserved hkey (List.mem_cons_of_mem "type" hloc)

/-- Nothing is stored twice in the document of a regular node. -/
lemma toJson_eq (h : n.Regular) : n.toJson = .record n.written := by
  have hlocation := Origin.names_locationMembers h.notes
  have htype : "type" ∉ names (n.members ++ n.origin.locationMembers) := by
    rw [names_append, List.mem_append]
    rintro (hmem | hmem)
    · exact h.not_reserved hmem (by decide)
    · exact absurd (hlocation.subset hmem) (by decide)
  have hmembers : (names (n.members ++ n.origin.locationMembers)).Nodup := by
    rw [names_append, List.nodup_append]
    refine ⟨h.nodup_members, hlocation.nodup (by decide), ?_⟩
    rintro key hkey _ hmem rfl
    exact h.disjoint_locationMembers hkey hmem
  rw [Node.toJson_eq h.notes, putAll_eq_append, written, List.singleton_append]
  rw [List.singleton_append, names_cons, List.nodup_cons]
  exact ⟨htype, hmembers⟩

/-! ### What is found in the document -/

lemma get?_written (h : n.Regular) {key : String} (hkey : key ∉ Kind.reservedKeys) :
    get? n.written key = get? n.members key := by
  have htype : key ≠ "type" := fun heq => hkey (heq ▸ by decide)
  have hlocation : get? n.origin.locationMembers key = none := by
    refine get?_eq_none_iff.mpr fun hmem => hkey (List.mem_cons_of_mem "type" ?_)
    exact (Origin.names_locationMembers h.notes).subset hmem
  rw [written, get?_cons, if_neg htype, get?_append, hlocation, Option.or_none]

lemma get?_written_type (n : Node) : get? n.written "type" = some (.scalar n.kind.tag) := by
  rw [written, get?_cons, if_pos rfl]

lemma get?_written_loc (h : n.Regular) :
    get? n.written "loc" = n.origin.loc.map Location.toJson := by
  rw [written, get?_cons, if_neg (by decide), get?_append,
    h.get?_members_of_reserved (by decide), Origin.locationMembers_eq h.notes]
  cases n.origin.loc <;> cases n.origin.range <;> simp [get?_cons]

lemma get?_written_range (h : n.Regular) :
    get? n.written "range" = n.origin.range.map fun range => .list [range.1, range.2] := by
  rw [written, get?_cons, if_neg (by decide), get?_append,
    h.get?_members_of_reserved (by decide), Origin.locationMembers_eq h.notes]
  cases n.origin.loc <;> cases n.origin.range <;> simp [get?_cons]

/-- The members that become fields are those that the fields were written as. -/
lemma filter_written (h : n.Regular) :
    (n.written.filter fun member => (n.kind.fieldOfKey? member.1).isSome) =
      n.fields.map fun entry => (n.kind.keyOfField entry.1, entry.2.toJson) := by
  have hreserved {key : String} (hkey : key ∈ Kind.reservedKeys) :
      n.kind.fieldOfKey? key = none := by
    simp [Kind.fieldOfKey?, hkey]
  have hextra : n.origin.extra.filter (fun member => (n.kind.fieldOfKey? member.1).isSome) = [] := by
    rw [List.filter_eq_nil_iff]
    intro member hmember
    simp [(h.apart _ (mem_names_of_mem hmember)).2]
  have hlocation : n.origin.locationMembers.filter
      (fun member => (n.kind.fieldOfKey? member.1).isSome) = [] := by
    rw [List.filter_eq_nil_iff]
    intro member hmember
    have hmem := (Origin.names_locationMembers h.notes).subset (mem_names_of_mem hmember)
    simp [hreserved (List.mem_cons_of_mem "type" hmem)]
  have htype : n.kind.fieldOfKey? "type" = none := hreserved (by decide)
  rw [written, List.filter_cons_of_neg (by simp [htype]), members, List.filter_append,
    List.filter_append, hextra, hlocation, List.nil_append, List.append_nil, List.filter_eq_self,
    List.forall_mem_map]
  intro entry hentry
  simp [h.spelled _ (mem_names_of_mem hentry)]

lemma extraOfMembers_written (h : n.Regular) :
    n.kind.extraOfMembers n.written = n.origin.extra := by
  have hfields : (n.fields.map fun entry => (n.kind.keyOfField entry.1, entry.2.toJson)).filter
      (fun member => !Kind.reservedKeys.contains member.1 &&
        (n.kind.fieldOfKey? member.1).isNone) = [] := by
    rw [List.filter_eq_nil_iff, List.forall_mem_map]
    intro entry hentry
    simp [h.spelled _ (mem_names_of_mem hentry)]
  have hlocation : n.origin.locationMembers.filter (fun member =>
      !Kind.reservedKeys.contains member.1 && (n.kind.fieldOfKey? member.1).isNone) = [] := by
    rw [List.filter_eq_nil_iff]
    intro member hmember
    have hmem := (Origin.names_locationMembers h.notes).subset (mem_names_of_mem hmember)
    simp [List.mem_cons_of_mem "type" hmem, Kind.reservedKeys]
  rw [Kind.extraOfMembers, written, List.filter_cons_of_neg (by simp [Kind.reservedKeys]), members,
    List.filter_append, List.filter_append, hfields, hlocation, List.append_nil, List.append_nil,
    List.filter_eq_self]
  intro member hmember
  have hapart := h.apart _ (mem_names_of_mem hmember)
  simp [hapart.1, hapart.2]

end Node.Regular

/-! ### Reading back -/

namespace Kind

variable {kind : Kind}

lemma fill_of_names {given fields : List (String × Value)} {specs : List FieldSpec}
    (hnames : names fields = specs.map (·.name))
    (hgiven : ∀ entry ∈ fields, get? given entry.1 = some entry.2) :
    kind.fill given specs = .ok fields := by
  induction specs generalizing fields with
  | nil =>
    obtain rfl : fields = [] := by simpa [names] using hnames
    rfl
  | cons spec rest ih =>
    cases fields with
    | nil => simp [names] at hnames
    | cons entry later =>
      obtain ⟨name, v⟩ := entry
      rw [List.forall_mem_cons] at hgiven
      obtain ⟨rfl, hlater⟩ : name = spec.name ∧ names later = rest.map (·.name) := by
        simpa using hnames
      rw [fill, hgiven.1, Option.some_or]
      simp [ih hlater hgiven.2]

/-- Fields that are complete and in order are taken as they are given. -/
lemma arrange_of_names {fields : List (String × Value)} (hnodup : (names fields).Nodup)
    (hnames : kind.isOther = false → names fields = kind.fieldNames) :
    kind.arrange fields = .ok fields := by
  have hstored : putAll [] fields = fields := putAll_eq_append (by simpa using hnodup)
  cases hother : kind.isOther with
  | true => simp [arrange, hother, hstored]
  | false =>
    simp only [arrange, hother, hstored, Bool.false_eq_true, if_false]
    exact fill_of_names (hnames hother) fun entry hentry => get?_of_mem hnodup hentry

end Kind

/-- A regular node is read from its document, if what its fields hold is read from theirs. -/
lemma Node.Regular.readFrom_written {n : Node} (h : n.Regular)
    (hfields : ∀ entry ∈ n.fields, Value.ofJson entry.2.toJson = .ok entry.2) :
    n.ReadFrom n.written where
  tag := get?_written_type n
  kind := h.kind
  loc := Location.ofMembers_eq_ok h.get?_written_loc
  range := by
    refine Origin.rangeOfMembers_eq_ok h.get?_written_range fun hnone => ?_
    rw [Origin.Unbounded, h.get?_written (by decide), h.get?_written (by decide)]
    exact h.unranged hnone
  extra := h.extraOfMembers_written.symm
  notes := h.notes
  fields := by
    refine ⟨n.fields, ?_, Kind.arrange_of_names h.nodup h.fieldNames⟩
    rw [Value.ofJsonMembers_eq_ok_iff, h.filter_written, List.forall₂_map_left_iff,
      List.forall₂_same]
    exact fun entry hentry => ⟨h.spelled _ (mem_names_of_mem hentry), hfields entry hentry⟩

/-- A record that reading keeps as it is. -/
def Untyped (members : List (String × Json)) : Prop := get? members "type" = none

/-- A value reads back from its document if its nodes are regular. -/
theorem Value.Throughout.ofJson_toJson {v : Value} (h : v.Throughout Node.Regular Untyped) :
    Value.ofJson v.toJson = .ok v := by
  induction h with
  | scalar s => rw [Value.toJson, Value.ofJson]
  | record h => rw [Value.toJson, ofJson_record_eq_ok_iff.mpr (.inl ⟨h, rfl⟩)]
  | @list items _ ih =>
    rw [Value.toJson, Value.toJsonItems_eq_map, ofJson_list_eq_ok_iff]
    refine ⟨items, ?_, rfl⟩
    rw [ofJsonItems_eq_ok_iff, List.forall₂_map_left_iff, List.forall₂_same]
    exact ih
  | node h _ ih =>
    rw [Value.toJson, h.toJson_eq, ofJson_record_eq_ok_iff]
    exact .inr ⟨_, rfl, h.readFrom_written ih⟩

end JsxControl
