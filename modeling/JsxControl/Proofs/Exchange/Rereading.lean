import JsxControl.Proofs.Exchange.Regular

/-!
# Reading what was written

Every node that is read is regular, so is every node that the library makes, and a pass keeps it so.
What was read therefore reads back from its document, and so does what a pass has made of it.
-/

namespace JsxControl

open Entries

/-! ### Documents of values -/

lemma Value.checkNotesOfItems_eq_ok {items : List Value}
    (h : ∀ item ∈ items, item.checkNotes = .ok ()) : Value.checkNotesOfItems items = .ok () := by
  induction items with
  | nil => rw [Value.checkNotesOfItems]
  | cons item rest ih =>
    rw [List.forall_mem_cons] at h
    rw [Value.checkNotesOfItems, h.1, ok_bind, ih h.2]

lemma Value.checkNotesOfFields_eq_ok {fields : List (String × Value)}
    (h : ∀ entry ∈ fields, entry.2.checkNotes = .ok ()) :
    Value.checkNotesOfFields fields = .ok () := by
  induction fields with
  | nil => rw [Value.checkNotesOfFields]
  | cons entry rest ih =>
    obtain ⟨name, v⟩ := entry
    rw [List.forall_mem_cons] at h
    rw [Value.checkNotesOfFields, h.1, ok_bind, ih h.2]

lemma Node.checkNotes_eq_ok {n : Node} (hnotes : n.origin.notes = [])
    (h : ∀ entry ∈ n.fields, entry.2.checkNotes = .ok ()) : n.checkNotes = .ok () := by
  obtain ⟨kind, fields, loc, range, extra, notes⟩ := n
  obtain rfl : notes = [] := hnotes
  rw [Node.checkNotes, Value.checkNotesOfFields_eq_ok h]
  rfl

/-- A value whose nodes are regular has a document. -/
lemma Value.Throughout.document {Q : List (String × Json) → Prop} {v : Value}
    (h : v.Throughout Node.Regular Q) : v.document = .ok v.toJson := by
  have hnotes : v.checkNotes = .ok () := by
    induction h with
    | scalar s => rw [Value.checkNotes]
    | record => rw [Value.checkNotes]
    | list _ ih => rw [Value.checkNotes, Value.checkNotesOfItems_eq_ok ih]
    | node h _ ih => rw [Value.checkNotes, Node.checkNotes_eq_ok h.notes ih]
  rw [Value.document, hnotes]
  rfl

lemma Node.int?_toJson (n : Node) : n.toJson.int? = none := by
  cases n
  rw [Node.toJson]
  rfl

/-! ### Regular nodes -/

/-- The document of a node has a member only for its fields and for what was kept apart. -/
lemma Node.get?_members_of_apart {n : Node}
    (hspelled : ∀ name ∈ names n.fields,
      n.kind.fieldOfKey? (n.kind.keyOfField name) = some name) {key : String}
    (hkey : n.kind.fieldOfKey? key = none) : get? n.members key = get? n.origin.extra key := by
  have hfields : get? (n.fields.map fun entry => (n.kind.keyOfField entry.1, entry.2.toJson)) key =
      none := by
    rw [get?_eq_none_iff, names, List.map_map]
    intro hmem
    obtain ⟨entry, hentry, rfl⟩ := List.mem_map.mp hmem
    have hsome := hspelled _ (mem_names_of_mem hentry)
    exact Option.some_ne_none _ (hsome.symm.trans hkey)
  rw [members, get?_append, hfields, Option.or_none]

lemma Node.Made.regular {n : Node} (h : n.Made) : n.Regular := by
  have hspelled : ∀ name ∈ names n.fields,
      n.kind.fieldOfKey? (n.kind.keyOfField name) = some name := by
    rw [h.fields]
    exact fun name hname => Kind.fieldOfKey?_keyOfField hname
  refine ⟨by rw [h.origin], Kind.ofTag_tag h.known, fun _ => h.fields, ?_, hspelled, ?_, ?_, ?_⟩
  · rw [h.fields]
    exact n.kind.nodup_fieldNames
  · simp [h.origin, names]
  · simp [h.origin, names]
  · intro _
    left
    rw [Node.get?_members_of_apart hspelled (Kind.fieldOfKey?_ends h.known).1, h.origin, get?_nil,
      Option.bind_none]

/-- Desugaring makes no number of what is none, and leaves every number. -/
lemma Value.int?_toJson_desugar (v : Value) (b : Bool) :
    (v.desugar b).toJson.int? = v.toJson.int? := by
  cases v with
  | scalar | record => rw [Value.desugar]
  | list items =>
    rw [Value.desugar, Value.toJson, Value.toJson]
    rfl
  | node n =>
    rw [Value.desugar, Value.toJson, n.int?_toJson]
    rcases Desugar.single_eq b (.node n.desugar) [] with h | ⟨r, h, -⟩
    · rw [h, Value.toJson, Node.int?_toJson]
    · rw [h, Value.toJson, Node.int?_toJson]

/-- What the document of a node has under a key was kept apart, or is what the field of this key was
written as. -/
lemma Node.get?_members (n : Node) (key : String) : get? n.members key =
    (get? n.origin.extra key).or
      ((get? (n.fields.map fun entry => (n.kind.keyOfField entry.1, entry.2)) key).map
        Value.toJson) := by
  rw [members, get?_append, ← get?_map, List.map_map]
  rfl

lemma Node.int?_members_desugar (n : Node) (key : String) :
    (get? n.desugar.members key).bind Json.int? = (get? n.members key).bind Json.int? := by
  have hfields : n.desugar.fields.map (fun entry => (n.kind.keyOfField entry.1, entry.2)) =
      (n.fields.map fun entry => (n.kind.keyOfField entry.1, entry.2)).map
        fun entry => (entry.1, entry.2.desugar (Value.node n).isJsx) := by
    rw [fields_desugar, List.map_map, List.map_map]
    rfl
  rw [get?_members, get?_members, kind_desugar, origin_desugar, hfields,
    get?_map (Value.desugar (Value.node n).isJsx)]
  cases get? n.origin.extra key with
  | some => rfl
  | none =>
    simp only [Option.none_or, Option.bind_map, Function.comp_def, Value.int?_toJson_desugar]

lemma Node.Regular.desugar {n : Node} (h : n.Regular) : n.desugar.Regular := by
  have hnames : names n.desugar.fields = names n.fields := by
    rw [fields_desugar, names_map]
  constructor
  · rw [origin_desugar, h.notes]
  · rw [kind_desugar, h.kind]
  · rw [kind_desugar, hnames]
    exact h.fieldNames
  · rw [hnames]
    exact h.nodup
  · rw [kind_desugar, hnames]
    exact h.spelled
  · rw [origin_desugar]
    exact h.nodupApart
  · rw [origin_desugar, kind_desugar]
    exact h.apart
  · rw [origin_desugar]
    intro hnone
    rw [Origin.Unbounded, Node.int?_members_desugar, Node.int?_members_desugar]
    exact h.unranged hnone

lemma Node.lasting_regular : Node.Lasting Node.Regular where
  notes _ h := h.notes
  made _ h := h.regular
  desugar _ h := h.desugar

/-! ### Nodes that are read -/

namespace Kind

variable {kind : Kind}

lemma mem_fieldNames_of_fieldOfKey? (h : kind.isOther = false) {key name : String}
    (hname : kind.fieldOfKey? key = some name) : name ∈ kind.fieldNames := by
  rw [fieldOfKey?_of_known h] at hname
  split_ifs at hname with hreserved hmem
  obtain rfl := Option.some.inj hname
  simpa using hmem

/-- In the spelling of their kind the members that become fields bear the keys of what is given. -/
lemma names_eq_of_reads {members : List (String × Json)} {given : List (String × Value)}
    (h : List.Forall₂ kind.Reads members given) (hspells : kind.Spells members) :
    names members = (names given).map kind.keyOfField := by
  induction h with
  | nil => rfl
  | @cons member field members given hreads _ ih =>
    rw [names_cons, names_cons, List.map_cons]
    rw [ih fun key hkey => hspells key (List.mem_cons_of_mem _ hkey),
      hspells member.1 List.mem_cons_self field.1 hreads.1]

lemma nodup_given {members : List (String × Json)} {given : List (String × Value)}
    (hnodup : (names members).Nodup) (hspells : kind.Spells members)
    (h : Value.ofJsonMembers kind members = .ok given) : (names given).Nodup := by
  rw [Value.ofJsonMembers_eq_ok_iff] at h
  have hnames := names_eq_of_reads h fun key hkey =>
    hspells key ((List.filter_sublist.map Prod.fst).subset hkey)
  exact .of_map _ (hnames ▸ nodup_names_filter hnodup _)

lemma get?_of_fill {given fields : List (String × Value)} {specs : List FieldSpec}
    (h : kind.fill given specs = .ok fields) {name : String} {v : Value}
    (hv : get? given name = some v) (hname : name ∈ specs.map (·.name)) :
    get? fields name = some v := by
  induction specs generalizing fields with
  | nil => simp at hname
  | cons spec rest ih =>
    rw [fill] at h
    split at h
    · next u hu =>
      obtain ⟨later, hlater, rfl⟩ : ∃ later, kind.fill given rest = .ok later ∧
          (spec.name, u) :: later = fields := by simpa using h
      rw [get?_cons]
      split_ifs with heq
      · rw [← heq, hv, Option.some_or] at hu
        exact hu.symm
      · exact ih hlater (by simpa [heq] using hname)
    · simp at h

/-- A field is found under its name as it was given. -/
lemma get?_of_arrange {given fields : List (String × Value)} (h : kind.arrange given = .ok fields)
    (hnodup : (names given).Nodup) {name : String} {v : Value} (hv : get? given name = some v)
    (hname : kind.isOther = false → name ∈ kind.fieldNames) : get? fields name = some v := by
  have hstored : putAll [] given = given := putAll_eq_append (by simpa using hnodup)
  rw [arrange, hstored] at h
  split_ifs at h with hother
  · obtain rfl : given = fields := by simpa using h
    exact hv
  · exact get?_of_fill h hv (hname (by simpa using hother))

end Kind

/-- Reading makes no number of what is none, and leaves every number. -/
lemma Value.int?_toJson_of_ofJson {json : Json} {v : Value} (h : Value.ofJson json = .ok v) :
    v.toJson.int? = json.int? := by
  cases json with
  | scalar s =>
    obtain rfl : Value.scalar s = v := by simpa [Value.ofJson] using h
    rw [Value.toJson]
  | list items =>
    obtain ⟨vs, -, rfl⟩ := Value.ofJson_list_eq_ok_iff.mp h
    rw [Value.toJson]
    rfl
  | record members =>
    rcases Value.ofJson_record_eq_ok_iff.mp h with ⟨-, rfl⟩ | ⟨n, rfl, -⟩
    · rw [Value.toJson]
    · rw [Value.toJson, n.int?_toJson]
      rfl

namespace Node.ReadFrom

variable {n : Node} {members : List (String × Json)}

lemma get?_extra (hn : n.ReadFrom members) {key : String} (hkey : key ∉ Kind.reservedKeys) :
    get? n.origin.extra key =
      if n.kind.fieldOfKey? key = none then get? members key else none := by
  rw [hn.extra, Kind.extraOfMembers,
    get?_filter fun key => !Kind.reservedKeys.contains key && (n.kind.fieldOfKey? key).isNone]
  simp [hkey]

/-- A node of an unknown kind has exactly the members that are not reserved for its fields. -/
lemma fields_of_isOther (hn : n.ReadFrom members) (hnodup : (names members).Nodup)
    (hother : n.kind.isOther = true) :
    Value.ofJsonMembers n.kind members = .ok n.fields ∧ (names n.fields).Nodup := by
  obtain ⟨given, hgiven, hfields⟩ := hn.fields
  have hnames := Kind.nodup_given hnodup (Kind.spells_of_isOther hother members) hgiven
  have hstored : putAll [] given = given := putAll_eq_append (by simpa using hnames)
  obtain rfl : given = n.fields := by simpa [Kind.arrange, hother, hstored] using hfields
  exact ⟨hgiven, hnames⟩

lemma spelled (hn : n.ReadFrom members) (hnodup : (names members).Nodup) :
    ∀ name ∈ names n.fields, n.kind.fieldOfKey? (n.kind.keyOfField name) = some name := by
  intro name hname
  cases hother : n.kind.isOther with
  | true =>
    obtain ⟨v, hv⟩ := mem_names.mp hname
    obtain ⟨member, -, hreads⟩ :=
      Value.exists_of_mem_given (hn.fields_of_isOther hnodup hother).1 hv
    obtain rfl : name = member.1 := Kind.fieldOfKey?_eq_some_of_isOther hother hreads.1
    rw [Kind.keyOfField_of_isOther hother, hreads.1]
  | false =>
    obtain ⟨given, -, hfields⟩ := hn.fields
    rw [(Kind.arrange_eq_ok hfields).1 hother] at hname
    exact Kind.fieldOfKey?_keyOfField hname

/-- What was kept apart is written as it was. -/
lemma get?_members_of_apart (hn : n.ReadFrom members) (hnodup : (names members).Nodup)
    {key : String} (hkey : key ∉ Kind.reservedKeys) (hapart : n.kind.fieldOfKey? key = none) :
    get? n.members key = get? members key := by
  rw [Node.get?_members_of_apart (hn.spelled hnodup) hapart, hn.get?_extra hkey, if_pos hapart]

/-- A field is written under the key under which it was read. -/
lemma get?_members_of_field (hn : n.ReadFrom members) (hnodup : (names members).Nodup)
    (hspells : n.kind.Spells members) {key name : String}
    (hname : n.kind.fieldOfKey? key = some name) {json : Json}
    (hjson : get? members key = some json) :
    ∃ v, Value.ofJson json = .ok v ∧ get? n.members key = some v.toJson := by
  obtain ⟨given, hgiven, hfields⟩ := hn.fields
  have hmem : (key, json) ∈ members.filter fun member => (n.kind.fieldOfKey? member.1).isSome := by
    simp [mem_of_get? hjson, hname]
  obtain ⟨⟨name', v⟩, hfield, hname', hread⟩ :=
    exists_of_mem_left_of_forall₂ (Value.ofJsonMembers_eq_ok_iff.mp hgiven) hmem
  obtain rfl : name = name' := Option.some.inj (hname.symm.trans hname')
  have hget : get? n.fields name = some v :=
    Kind.get?_of_arrange hfields (Kind.nodup_given hnodup hspells hgiven)
      (get?_of_mem (Kind.nodup_given hnodup hspells hgiven) hfield)
      fun hknown => Kind.mem_fieldNames_of_fieldOfKey? hknown hname
  have hkey : key = n.kind.keyOfField name :=
    hspells key (mem_names_of_mem (mem_of_get? hjson)) name hname
  have hreserved : key ∉ Kind.reservedKeys := Kind.not_reserved_of_fieldOfKey? hname
  refine ⟨v, hread, ?_⟩
  rw [Node.members, get?_append, hn.get?_extra hreserved, hname, if_neg (by simp), Option.none_or,
    hkey, get?_map_names n.kind.keyOfField Value.toJson, hget, Option.map_some]
  intro other hother heq
  have hsome := hn.spelled hnodup other hother
  rw [heq, ← hkey, hname] at hsome
  exact (Option.some.inj hsome).symm

/-- Where no field takes its default, nothing is written under a key that was not read. -/
lemma names_members_subset (hn : n.ReadFrom members) (hnodup : (names members).Nodup)
    (hcomplete : n.kind.isOther = false →
      ∀ name ∈ n.kind.fieldNames, n.kind.keyOfField name ∈ names members) :
    names n.members ⊆ names members := by
  intro key hkey
  rw [names_members, List.mem_append] at hkey
  rcases hkey with hkey | hkey
  · rw [hn.extra] at hkey
    exact (List.filter_sublist.map Prod.fst).subset hkey
  · obtain ⟨name, hname, rfl⟩ := List.mem_map.mp hkey
    cases hother : n.kind.isOther with
    | true =>
      obtain ⟨v, hv⟩ := mem_names.mp hname
      obtain ⟨member, hmember, hreads⟩ :=
        Value.exists_of_mem_given (hn.fields_of_isOther hnodup hother).1 hv
      obtain rfl : name = member.1 := Kind.fieldOfKey?_eq_some_of_isOther hother hreads.1
      rw [Kind.keyOfField_of_isOther hother]
      exact mem_names_of_mem hmember
    | false =>
      obtain ⟨given, -, hfields⟩ := hn.fields
      exact hcomplete hother name ((Kind.arrange_eq_ok hfields).1 hother ▸ hname)

lemma int?_members (hn : n.ReadFrom members) (hnodup : (names members).Nodup) {key : String}
    (hkey : key ∉ Kind.reservedKeys)
    (hknown : n.kind.isOther = false → n.kind.fieldOfKey? key = none) :
    (get? n.members key).bind Json.int? = (get? members key).bind Json.int? := by
  cases hother : n.kind.isOther with
  | false => rw [hn.get?_members_of_apart hnodup hkey (hknown hother)]
  | true =>
    cases hjson : get? members key with
    | none =>
      rw [get?_eq_none_iff.mpr fun hmem => get?_eq_none_iff.mp hjson
        (hn.names_members_subset hnodup (by simp [hother]) hmem)]
    | some json =>
      obtain ⟨v, hv, hget⟩ := hn.get?_members_of_field hnodup (Kind.spells_of_isOther hother members)
        (Kind.fieldOfKey?_of_isOther hother hkey) hjson
      rw [hget, Option.bind_some, Option.bind_some, Value.int?_toJson_of_ofJson hv]

/-- Every node that is read from a document is regular. -/
lemma regular (hn : n.ReadFrom members) (hnodup : (names members).Nodup) : n.Regular where
  notes := hn.notes
  kind := hn.kind
  fieldNames := by
    obtain ⟨given, -, hfields⟩ := hn.fields
    exact (Kind.arrange_eq_ok hfields).1
  nodup := by
    cases hother : n.kind.isOther with
    | true => exact (hn.fields_of_isOther hnodup hother).2
    | false =>
      obtain ⟨given, -, hfields⟩ := hn.fields
      rw [(Kind.arrange_eq_ok hfields).1 hother]
      exact n.kind.nodup_fieldNames
  spelled := hn.spelled hnodup
  nodupApart := by
    rw [hn.extra]
    exact nodup_names_filter hnodup _
  apart := by
    intro key hkey
    rw [hn.extra] at hkey
    obtain ⟨member, hmember, rfl⟩ := List.mem_map.mp hkey
    simpa using (List.mem_filter.mp hmember).2
  unranged := by
    intro hnone
    have hends := hn.range
    rw [hnone] at hends
    rw [Origin.Unbounded,
      hn.int?_members hnodup (by decide) fun hknown => (Kind.fieldOfKey?_ends hknown).1,
      hn.int?_members hnodup (by decide) fun hknown => (Kind.fieldOfKey?_ends hknown).2]
    exact Origin.unbounded_of_rangeOfMembers hends

end Node.ReadFrom

/-- What is read is regular throughout. -/
lemma Value.throughout_regular {json : Json} (hjson : json.Distinct) {v : Value}
    (h : Value.ofJson json = .ok v) : v.Throughout Node.Regular Untyped := by
  refine Value.ofJson_throughout Node.lasting_regular json (fun members n hreach hn => ?_)
    (fun _ _ htag => htag) h
  exact hn.regular (hjson members hreach.hasPart)

/-- A value whose nodes are regular reads back from its document. -/
lemma Value.Throughout.document_bind_ofJson {v : Value} (h : v.Throughout Node.Regular Untyped) :
    (v.document >>= Value.ofJson) = .ok v := by
  rw [h.document, ok_bind, h.ofJson_toJson]

/-- Reading undoes writing, on every tree that was read and on every tree that a pass has made of
one. -/
theorem Value.document_reads_back {json : Json} (hjson : json.Distinct) {v : Value}
    (h : Value.ofJson json = .ok v) :
    (v.document >>= Value.ofJson) = .ok v ∧
      ∀ (asked : Topic → Bool) (filename : String) (v' : Value),
        (Expand.tree asked filename v).toExcept = .ok v' →
          (v'.document >>= Value.ofJson) = .ok v' := by
  have hregular := Value.throughout_regular hjson h
  refine ⟨hregular.document_bind_ofJson, fun asked filename v' htree => ?_⟩
  exact (Expand.throughout_of_tree_eq_ok Node.lasting_regular h htree hregular).document_bind_ofJson

/-- The document of `<><$if test={a}>b</$if></>`, with a note and the place where it was read. -/
def locatedDocument : Json :=
  let point (column : Int) : Json := .record [("line", .int 1), ("column", .int column)]
  .record [("type", .text "JSXFragment"), ("x-note", .list [.bool true, .record []]),
    ("start", .int 0), ("end", .int 30),
    ("loc", .record [("start", point 0), ("end", point 30)]),
    ("children", .list [elementDocument "$if" [("test", "a")] "b"])]

theorem locatedDocument_reads_back : ∃ v v', Value.ofJson locatedDocument = .ok v ∧
    (Expand.tree (fun _ => false) "a.jsx" v).toExcept = .ok v' ∧
    (v.document >>= Value.ofJson) = .ok v ∧ (v'.document >>= Value.ofJson) = .ok v' := by
  obtain ⟨v, v', hread, htree⟩ : ∃ v v', Value.ofJson locatedDocument = .ok v ∧
      (Expand.tree (fun _ => false) "a.jsx" v).toExcept = .ok v' := ⟨_, _, rfl, rfl⟩
  have hdistinct : locatedDocument.Distinct := by
    simp [locatedDocument, elementDocument, names]
  obtain ⟨hback, hrest⟩ := Value.document_reads_back hdistinct hread
  exact ⟨v, v', hread, htree, hback, hrest _ _ v' htree⟩

end JsxControl
