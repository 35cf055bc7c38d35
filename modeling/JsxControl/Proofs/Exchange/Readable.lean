import JsxControl.Proofs.Exchange.Documents

/-!
# Which documents are read

Reading fails in few ways: at a type tag that has parts, at a location or a range of the wrong form,
and where a field that a known kind requires is missing. All of them lie in a record with a type tag
that reading comes to. What is kept as it is may be anything.
-/

namespace JsxControl

open Entries

/-! ### Computations that fail -/

/-- A computation gives no result. -/
def Fails {α : Type} (x : Except Fault α) : Prop := ∃ fault, x = .error fault

section Fails

variable {α β : Type} {x : Except Fault α}

@[simp] lemma not_fails_ok (a : α) : ¬ Fails (.ok a : Except Fault α) := by
  simp [Fails]

@[simp] lemma fails_error (fault : Fault) : Fails (.error fault : Except Fault α) := ⟨fault, rfl⟩

lemma not_fails_iff : ¬ Fails x ↔ ∃ a, x = .ok a := by
  cases x <;> simp

/-- Where the results of `x` do not matter to it, what comes after `x` fails on its own. -/
lemma fails_bind_iff {f : α → Except Fault β} {P : Prop} (h : ∀ a, x = .ok a → (Fails (f a) ↔ P)) :
    Fails (x >>= f) ↔ Fails x ∨ P := by
  cases x with
  | ok a => simp [h a rfl]
  | error => simp

@[simp] lemma fails_map_iff {f : α → β} : Fails (x >>= fun a => Except.ok (f a)) ↔ Fails x := by
  cases x <;> simp

end Fails

/-! ### Documents that cannot be read -/

namespace Json

/-- A record with a line and a column. -/
def HasPoint (json : Json) : Prop :=
  ∃ members, json = .record members ∧ "line" ∈ names members ∧ "column" ∈ names members

/-- A value with two parts: a list of two items, a text of two characters or a record with two
members. -/
inductive HasTwo : Json → Prop
  | list (start stop : Json) : HasTwo (.list [start, stop])
  | text {s : String} (h : s.length = 2) : HasTwo (.text s)
  | record {members : List (String × Json)} (h : members.length = 2) : HasTwo (.record members)

/-- What is wrong with the members of a record with a type tag, apart from what they hold. -/
inductive Faulty (members : List (String × Json)) : Prop
  /-- The type tag is a list or a record. -/
  | tag {tag : Json} (htag : get? members "type" = some tag) (h : ∀ s, tag ≠ .scalar s)
  /-- The location is a record in which one of the two ends is missing or is no point. -/
  | loc {loc : List (String × Json)} (hloc : get? members "loc" = some (.record loc)) {side : String}
    (hside : side ∈ ["start", "end"]) (h : ∀ point, get? loc side = some point → ¬ point.HasPoint)
  /-- The range does not have two parts, and it is not null. -/
  | range {range : Json} (hrange : get? members "range" = some range) (hnull : range ≠ .null)
    (h : ¬ range.HasTwo)
  /-- A field without a default, of a known kind, is not given under any key. -/
  | field {tag : Scalar} (htag : get? members "type" = some (.scalar tag)) {spec : FieldSpec}
    (hspec : spec ∈ (Kind.ofTag tag).layout) (hrequired : spec.default? = none)
    (h : ∀ key ∈ names members, (Kind.ofTag tag).fieldOfKey? key ≠ some spec.name)

end Json

variable {members : List (String × Json)}

/-- A record whose type tag is a scalar is faulty in its location, its range or its fields. -/
lemma Json.faulty_iff {tag : Scalar} (htag : get? members "type" = some (.scalar tag)) :
    Faulty members ↔
      (∃ loc, get? members "loc" = some (.record loc) ∧ ∃ side ∈ ["start", "end"],
        ∀ point, get? loc side = some point → ¬ point.HasPoint) ∨
      (∃ range, get? members "range" = some range ∧ range ≠ .null ∧ ¬ range.HasTwo) ∨
      ∃ spec ∈ (Kind.ofTag tag).layout, spec.default? = none ∧
        ∀ key ∈ names members, (Kind.ofTag tag).fieldOfKey? key ≠ some spec.name := by
  constructor
  · rintro (⟨htag', hcompound⟩ | ⟨hloc, hside, h⟩ | ⟨hrange, hnull, h⟩ |
      ⟨htag', hspec, hrequired, h⟩)
    · exact absurd (Option.some.inj (htag'.symm.trans htag)) (hcompound tag)
    · exact .inl ⟨_, hloc, _, hside, h⟩
    · exact .inr (.inl ⟨_, hrange, hnull, h⟩)
    · obtain rfl : tag = _ := by simpa [htag] using htag'
      exact .inr (.inr ⟨_, hspec, hrequired, h⟩)
  · rintro (⟨loc, hloc, side, hside, h⟩ | ⟨range, hrange, hnull, h⟩ | ⟨spec, hspec, hrequired, h⟩)
    · exact .loc hloc hside h
    · exact .range hrange hnull h
    · exact .field htag hspec hrequired h

/-! ### Locations and ranges -/

lemma Position.fails_ofJson_iff {json : Json} : Fails (Position.ofJson json) ↔ ¬ json.HasPoint := by
  cases json with
  | record members =>
    cases hline : get? members "line" <;> cases hcolumn : get? members "column" <;>
      simp [ofJson, Json.member, Json.HasPoint, hline, hcolumn, ← get?_eq_none_iff]
  | scalar | list => simp [ofJson, Json.member, Json.HasPoint]

lemma Location.fails_ofMembers_iff : Fails (Location.ofMembers members) ↔
    ∃ loc, get? members "loc" = some (.record loc) ∧ ∃ side ∈ ["start", "end"],
      ∀ point, get? loc side = some point → ¬ point.HasPoint := by
  rw [ofMembers]
  split
  · next loc hloc =>
    have hside (side : String) : Fails ((Json.record loc).member side >>= Position.ofJson) ↔
        ∀ point, get? loc side = some point → ¬ point.HasPoint := by
      cases h : get? loc side <;> simp [Json.member, h, Position.fails_ofJson_iff]
    rw [← bind_assoc]
    simp only [← bind_assoc ((Json.record loc).member "end"), pure_eq_ok]
    rw [fails_bind_iff fun _ _ => fails_map_iff, hside, hside, hloc]
    simp
  · next hloc => simpa using fun loc hrecord => absurd hrecord (hloc loc)

lemma Json.hasTwo_iff {json : Json} : json.HasTwo ↔ ∃ start stop, json.parts = .ok [start, stop] := by
  constructor
  · rintro (⟨start, stop⟩ | h | h)
    · exact ⟨start, stop, rfl⟩
    · obtain ⟨c, d, hchars⟩ := List.length_eq_two.mp ((String.length_toList ..).trans h)
      exact ⟨_, _, by rw [parts, hchars]; rfl⟩
    · obtain ⟨first, second, rfl⟩ := List.length_eq_two.mp h
      exact ⟨_, _, rfl⟩
  · rintro ⟨start, stop, h⟩
    unfold parts at h
    split at h
    · obtain rfl := Except.ok.inj h
      exact .list start stop
    · next s =>
      refine .text ?_
      rw [← String.length_toList]
      simpa using congrArg List.length (Except.ok.inj h)
    · refine .record ?_
      simpa using congrArg List.length (Except.ok.inj h)
    · simp at h

lemma Origin.fails_rangeOfMembers_iff : Fails (Origin.rangeOfMembers members) ↔
    ∃ range, get? members "range" = some range ∧ range ≠ .null ∧ ¬ range.HasTwo := by
  rw [rangeOfMembers]
  split
  · next hrange => split <;> simp [hrange]
  · next hrange => split <;> simp [hrange]
  · next range hnull hrange =>
    simp only [hrange, Option.some.injEq, exists_eq_left', Json.hasTwo_iff]
    rw [and_iff_right hnull]
    cases range.parts with
    | error => simp
    | ok parts =>
      match parts with
      | [] | [_] | _ :: _ :: _ :: _ => simp
      | [start, stop] => simp

/-! ### Fields -/

namespace Kind

variable {kind : Kind} {given : List (String × Value)}

/-- Fields are filled in unless one is missing that has no default. -/
lemma fails_fill_iff {specs : List FieldSpec} : Fails (kind.fill given specs) ↔
    ∃ spec ∈ specs, spec.default? = none ∧ spec.name ∉ names given := by
  induction specs with
  | nil => simp [fill]
  | cons spec rest ih =>
    cases h : get? given spec.name with
    | some v =>
      have hmem : spec.name ∈ names given := mem_names.mpr ⟨v, mem_of_get? h⟩
      simp [fill, h, ih, hmem]
    | none =>
      have hmem : spec.name ∉ names given := get?_eq_none_iff.mp h
      cases hdefault : spec.default? <;> simp [fill, h, ih, hmem, hdefault]

lemma fails_arrange_iff : Fails (kind.arrange given) ↔
    ∃ spec ∈ kind.layout, spec.default? = none ∧ spec.name ∉ names given := by
  rw [arrange]
  split_ifs with hother
  · cases kind <;> simp [isOther] at hother
    simp [layout]
  · have hnames (name : String) : name ∈ names (putAll [] given) ↔ name ∈ names given := by
      rw [mem_names_putAll]
      simp [names]
    simp only [fails_fill_iff, hnames]

end Kind

namespace Value

lemma fails_ofJsonItems_iff {items : List Json} :
    Fails (ofJsonItems items) ↔ ∃ item ∈ items, Fails (ofJson item) := by
  induction items with
  | nil => simp [ofJsonItems]
  | cons item rest ih =>
    simp only [ofJsonItems, pure_eq_ok]
    rw [fails_bind_iff fun _ _ => fails_map_iff, ih]
    simp

lemma fails_ofJsonMembers_iff {kind : Kind} : Fails (ofJsonMembers kind members) ↔
    ∃ member ∈ members, (kind.fieldOfKey? member.1).isSome ∧ Fails (ofJson member.2) := by
  induction members with
  | nil => simp [ofJsonMembers]
  | cons member rest ih =>
    obtain ⟨key, json⟩ := member
    rw [ofJsonMembers]
    split
    · next hname => simp [hname, ih]
    · next name hname =>
      simp only [pure_eq_ok]
      rw [fails_bind_iff fun _ _ => fails_map_iff, ih]
      simp [hname]

/-- The fields that are given are those that the keys of the members spell. -/
lemma mem_names_given {kind : Kind} {given : List (String × Value)}
    (h : ofJsonMembers kind members = .ok given) {name : String} :
    name ∈ names given ↔ ∃ key ∈ names members, kind.fieldOfKey? key = some name := by
  rw [ofJsonMembers_eq_ok_iff] at h
  constructor
  · intro hname
    obtain ⟨v, hv⟩ := mem_names.mp hname
    obtain ⟨member, hmember, hreads⟩ := exists_of_mem_right_of_forall₂ h hv
    exact ⟨member.1, mem_names_of_mem (List.mem_of_mem_filter hmember), hreads.1⟩
  · rintro ⟨key, hkey, hname⟩
    obtain ⟨json, hjson⟩ := mem_names.mp hkey
    obtain ⟨⟨name', v⟩, hfield, hreads⟩ :=
      exists_of_mem_left_of_forall₂ h (List.mem_filter.mpr ⟨hjson, by simp [hname]⟩)
    obtain rfl : name = name' := Option.some.inj (hname.symm.trans hreads.1)
    exact mem_names_of_mem hfield

/-- The fields of a kind are read unless one is missing or a member that becomes a field cannot be
read. -/
lemma fails_fields_iff {kind : Kind} {α : Type} {f : List (String × Value) → α} :
    Fails (ofJsonMembers kind members >>= fun given =>
      kind.arrange given >>= fun fields => Except.ok (f fields)) ↔
      (∃ spec ∈ kind.layout, spec.default? = none ∧
        ∀ key ∈ names members, kind.fieldOfKey? key ≠ some spec.name) ∨
      ∃ member ∈ members, (kind.fieldOfKey? member.1).isSome ∧ Fails (ofJson member.2) := by
  rw [fails_bind_iff fun given hgiven => ?_, fails_ofJsonMembers_iff, or_comm]
  rw [fails_map_iff, Kind.fails_arrange_iff]
  simp only [mem_names_given hgiven, not_exists, not_and, ne_eq]

/-- The parts of a record that are converted are the members that become fields. -/
lemma exists_converts_iff {tag : Scalar} (htag : get? members "type" = some (.scalar tag))
    {P : Json → Prop} : (∃ part, (Json.record members).Converts part ∧ P part) ↔
      ∃ member ∈ members, ((Kind.ofTag tag).fieldOfKey? member.1).isSome ∧ P member.2 := by
  constructor
  · rintro ⟨part, hpart, h⟩
    cases hpart with
    | @field _ tag' key name _ htag' hmember hname =>
      obtain rfl : tag = tag' := by simpa [htag] using htag'
      exact ⟨(key, part), hmember, by simp [hname], h⟩
  · rintro ⟨member, hmember, hname, h⟩
    obtain ⟨name, hname⟩ := Option.isSome_iff_exists.mp hname
    exact ⟨member.2, .field htag hmember hname, h⟩

/-- A record with a type tag is read unless its members are faulty or one that is converted cannot be
read. -/
lemma fails_ofJson_record_iff (htype : "type" ∈ names members) : Fails (ofJson (.record members)) ↔
    Json.Faulty members ∨ ∃ part, (Json.record members).Converts part ∧ Fails (ofJson part) := by
  obtain ⟨tag, htag⟩ := exists_get?_of_mem_names htype
  rw [ofJson, htag]
  simp only
  cases tag with
  | scalar tag =>
    simp only [pure_eq_ok]
    rw [fails_bind_iff fun _ _ => fails_bind_iff fun _ _ => fails_fields_iff,
      Location.fails_ofMembers_iff, Origin.fails_rangeOfMembers_iff, exists_converts_iff htag]
    simp only [Json.faulty_iff htag, or_assoc]
  | list | record =>
    rw [fails_bind_iff fun _ _ => fails_bind_iff fun _ _ => iff_of_true (fails_error _) trivial]
    simp [show Json.Faulty members from .tag htag (by simp)]

/-- Reading a document fails at the document itself or at a part that is converted. -/
lemma fails_ofJson_iff {json : Json} : Fails (ofJson json) ↔
    (∃ members, json = .record members ∧ "type" ∈ names members ∧ Json.Faulty members) ∨
      ∃ part, json.Converts part ∧ Fails (ofJson part) := by
  cases json with
  | scalar s =>
    have hparts (part : Json) : ¬ (Json.scalar s).Converts part := by rintro ⟨⟩
    simp [ofJson, hparts]
  | list items =>
    have hparts (part : Json) : (Json.list items).Converts part ↔ part ∈ items :=
      ⟨fun h => by cases h with | item h => exact h, .item⟩
    simp [ofJson, hparts, fails_ofJsonItems_iff]
  | record members =>
    by_cases htype : "type" ∈ names members
    · simp [fails_ofJson_record_iff htype, htype]
    · have htag : get? members "type" = none := get?_eq_none_iff.mpr htype
      have hparts (part : Json) : ¬ (Json.record members).Converts part := by
        rintro ⟨⟩
        simp_all
      simp [ofJson, htag, htype, hparts]

/-- Reading fails exactly if it comes to a record with a type tag whose members are faulty. -/
theorem ofJson_fails_iff {json : Json} : (∃ fault, ofJson json = .error fault) ↔
    ∃ members, json.Reaches (.record members) ∧ "type" ∈ names members ∧ Json.Faulty members := by
  induction json using Json.conversion_induction with
  | step json ih =>
    rw [← Fails, fails_ofJson_iff]
    constructor
    · rintro (⟨members, rfl, htype, h⟩ | ⟨part, hpart, h⟩)
      · exact ⟨members, .refl, htype, h⟩
      · obtain ⟨members, hreach, hfaulty⟩ := (ih part hpart).mp h
        exact ⟨members, .head hpart hreach, hfaulty⟩
    · rintro ⟨members, hreach, htype, h⟩
      obtain rfl | ⟨part, hpart, hreach⟩ := hreach.cases_head
      · exact .inl ⟨members, rfl, htype, h⟩
      · exact .inr ⟨part, hpart, (ih part hpart).mpr ⟨members, hreach, htype, h⟩⟩

/-- The type tag below the unknown member is never looked at. -/
example : (ofJson (.record [("type", .text "Identifier"), ("name", .text "x"),
    ("aside", .record [("type", .list [])])])).isOk := rfl

end Value

end JsxControl
