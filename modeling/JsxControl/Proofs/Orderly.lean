import JsxControl.Proofs.Entries
import JsxControl.Proofs.Outcome
import JsxControl.Proofs.Slots

/-!
# Trees as they are read

A node that was read from a document, or made by the library, has no notes, and if its kind is known
it has exactly the fields of its kind. Looking into such a node gives its fields and nothing else.
-/

namespace JsxControl

/-- A node has no notes, and the fields of its kind if the kind is known. -/
def Node.Orderly (n : Node) : Prop :=
  n.origin.notes = [] ∧ (n.kind.isOther = false → Entries.names n.fields = n.kind.fieldNames)

lemma Kind.nodup_fieldNames (kind : Kind) : kind.fieldNames.Nodup := by
  cases kind <;> simp [fieldNames, layout, FieldSpec.required, FieldSpec.optional]

/-! ### Looking into nodes without notes -/

/-- Looking into a node without notes finds one of its fields. -/
lemma Node.field_eq_ok_iff {n : Node} (hn : n.origin.notes = []) {name : String} {v : Value} :
    n.field name = .ok v ↔ n.kind.isOther = false ∧ Entries.get? n.fields name = some v := by
  rw [Node.field, Origin.note?]
  rw [hn]
  cases n.kind.isOther <;> cases Entries.get? n.fields name <;> simp

/-- What looking for a field finds has the property that a node has everywhere. -/
lemma Node.Everywhere.found {P : Node → Prop} {n : Node} (h : n.Everywhere P)
    (hn : n.origin.notes = []) {name : String} {v : Value} (hv : n.field name = .ok v) :
    v.Everywhere P :=
  h.field (Entries.mem_of_get? ((field_eq_ok_iff hn).mp hv).2)

lemma Node.Orderly.field_eq_ok {n : Node} (hn : n.Orderly) {name : String} {v : Value}
    (h : n.field name = .ok v) : (name, v) ∈ n.fields ∧ name ∈ n.kind.fieldNames := by
  obtain ⟨hknown, hget⟩ := (Node.field_eq_ok_iff hn.1).mp h
  refine ⟨Entries.mem_of_get? hget, ?_⟩
  rw [← hn.2 hknown]
  exact List.mem_map.mpr ⟨_, Entries.mem_of_get? hget, rfl⟩

/-! ### Reading -/

namespace Kind

lemma fill_eq_ok {kind : Kind} {given fields : List (String × Value)} {specs : List FieldSpec}
    (h : kind.fill given specs = .ok fields) :
    Entries.names fields = specs.map (·.name) ∧
      ∀ entry ∈ fields, entry ∈ given ∨ ∃ spec ∈ specs, spec.default? = some entry.2 := by
  induction specs generalizing fields with
  | nil =>
    obtain rfl : [] = fields := by simpa [fill] using h
    simp [Entries.names]
  | cons spec rest ih =>
    rw [fill] at h
    split at h
    · next v hv =>
      obtain ⟨later, hlater, rfl⟩ : ∃ later, kind.fill given rest = .ok later ∧
          (spec.name, v) :: later = fields := by simpa using h
      obtain ⟨hnames, hmem⟩ := ih hlater
      refine ⟨by simpa [Entries.names] using hnames, ?_⟩
      rintro entry (_ | ⟨_, hentry⟩)
      · rcases Option.or_eq_some_iff.mp hv with hgiven | ⟨-, hdefault⟩
        · exact .inl (Entries.mem_of_get? hgiven)
        · exact .inr ⟨spec, by simp, hdefault⟩
      · rcases hmem entry hentry with hgiven | ⟨spec', hspec', hdefault⟩
        · exact .inl hgiven
        · exact .inr ⟨spec', by simp [hspec'], hdefault⟩
    · simp at h

/-- The only nodes among the contents by default are those around a fragment, which are empty. -/
lemma slotNodes_default (kind : Kind) {spec : FieldSpec} (hspec : spec ∈ kind.layout) {v : Value}
    (hv : spec.default? = some v) {m : Node} (hm : m ∈ v.slotNodes) :
    m.fields = [] ∧ m.origin.notes = [] ∧ m.kind.fieldNames = [] := by
  have hdefaults : kind.layout.flatMap (fun spec => spec.default?.elim [] Value.slotNodes) =
      if kind = .jsxFragment then [⟨.jsxOpeningFragment, [], {}⟩, ⟨.jsxClosingFragment, [], {}⟩]
      else [] := by
    cases kind <;> rfl
  have hmem : m ∈ kind.layout.flatMap fun spec => spec.default?.elim [] Value.slotNodes :=
    List.mem_flatMap.mpr ⟨spec, hspec, by simpa [hv] using hm⟩
  rw [hdefaults] at hmem
  split_ifs at hmem
  · simp only [List.mem_cons, List.not_mem_nil, or_false] at hmem
    rcases hmem with rfl | rfl <;> exact ⟨rfl, rfl, rfl⟩
  · simp at hmem

/-- The content of every field of a node is among what was given for it, or a default. -/
lemma arrange_eq_ok {kind : Kind} {given fields : List (String × Value)}
    (h : kind.arrange given = .ok fields) :
    (kind.isOther = false → Entries.names fields = kind.fieldNames) ∧
      ∀ entry ∈ fields, (∃ name, (name, entry.2) ∈ given) ∨
        ∃ spec ∈ kind.layout, spec.default? = some entry.2 := by
  have hstored (entry) (hentry : entry ∈ Entries.putAll [] given) :
      ∃ name, (name, entry.2) ∈ given := by
    rcases Entries.mem_putAll hentry with h | h
    · simp at h
    · exact h
  rw [arrange] at h
  split_ifs at h with hother
  · obtain rfl : Entries.putAll [] given = fields := by simpa using h
    exact ⟨by simp [hother], fun entry hentry => .inl (hstored entry hentry)⟩
  · obtain ⟨hnames, hmem⟩ := fill_eq_ok h
    refine ⟨fun _ => hnames, fun entry hentry => ?_⟩
    exact (hmem entry hentry).imp_left (hstored entry)

end Kind

/-- A node is orderly if what was given for its fields is. -/
lemma Node.everywhere_orderly_of_arrange {kind : Kind} {given fields : List (String × Value)}
    (hfields : kind.arrange given = .ok fields)
    (hgiven : ∀ entry ∈ given, entry.2.Everywhere Node.Orderly) {origin : Origin}
    (hnotes : origin.notes = []) : (Node.mk kind fields origin).Everywhere Node.Orderly := by
  obtain ⟨hnames, hmem⟩ := Kind.arrange_eq_ok hfields
  refine Node.everywhere_iff.mpr ⟨⟨hnotes, hnames⟩, ?_⟩
  intro entry hentry
  rcases hmem entry hentry with ⟨name, h⟩ | ⟨spec, hspec, hdefault⟩
  · exact hgiven (name, entry.2) h
  · intro m hm
    obtain ⟨hempty, hnotes, hnames⟩ := Kind.slotNodes_default kind hspec hdefault hm
    refine Node.everywhere_iff.mpr ⟨⟨hnotes, fun _ => ?_⟩, by simp [hempty]⟩
    simp [hempty, hnames, Entries.names]

mutual

/-- Reading gives orderly nodes only. -/
theorem Value.ofJson_orderly {json : Json} {v : Value} (h : Value.ofJson json = .ok v) :
    v.Everywhere Node.Orderly := by
  match json with
  | .scalar s =>
    obtain rfl : Value.scalar s = v := by simpa [Value.ofJson] using h
    simp
  | .list items =>
    obtain ⟨vs, hvs, rfl⟩ : ∃ vs, Value.ofJsonItems items = .ok vs ∧ Value.list vs = v := by
      simpa [Value.ofJson] using h
    exact .of_items (Value.ofJsonItems_orderly hvs)
  | .record members =>
    rw [Value.ofJson] at h
    split at h
    · obtain rfl : Value.record members = v := by simpa using h
      simp
    · next tag htag =>
      simp only [bind_eq_ok_iff] at h
      obtain ⟨loc, -, range, -, h⟩ := h
      cases tag with
      | scalar tag =>
        obtain ⟨given, hgiven, fields, hfields, rfl⟩ : ∃ given,
            Value.ofJsonMembers (Kind.ofTag tag) members = .ok given ∧ ∃ fields,
              (Kind.ofTag tag).arrange given = .ok fields ∧
                Value.node ⟨Kind.ofTag tag, fields,
                  { loc, range, extra := (Kind.ofTag tag).extraOfMembers members }⟩ = v := by
          simpa using h
        rw [Value.everywhere_node]
        exact Node.everywhere_orderly_of_arrange hfields (Value.ofJsonMembers_orderly hgiven) rfl
      | list | record => simp at h

lemma Value.ofJsonItems_orderly {items : List Json} {vs : List Value}
    (h : Value.ofJsonItems items = .ok vs) : ∀ v ∈ vs, v.Everywhere Node.Orderly := by
  match items with
  | [] =>
    obtain rfl : [] = vs := by simpa [Value.ofJsonItems] using h
    simp
  | item :: rest =>
    obtain ⟨v, hv, later, hlater, rfl⟩ : ∃ v, Value.ofJson item = .ok v ∧ ∃ later,
        Value.ofJsonItems rest = .ok later ∧ v :: later = vs := by
      simpa [Value.ofJsonItems] using h
    rw [List.forall_mem_cons]
    exact ⟨Value.ofJson_orderly hv, Value.ofJsonItems_orderly hlater⟩

lemma Value.ofJsonMembers_orderly {kind : Kind} {members : List (String × Json)}
    {given : List (String × Value)} (h : Value.ofJsonMembers kind members = .ok given) :
    ∀ entry ∈ given, entry.2.Everywhere Node.Orderly := by
  match members with
  | [] =>
    obtain rfl : [] = given := by simpa [Value.ofJsonMembers] using h
    simp
  | (key, json) :: rest =>
    rw [Value.ofJsonMembers] at h
    split at h
    · exact Value.ofJsonMembers_orderly h
    · next name hname =>
      obtain ⟨v, hv, later, hlater, rfl⟩ : ∃ v, Value.ofJson json = .ok v ∧ ∃ later,
          Value.ofJsonMembers kind rest = .ok later ∧ (name, v) :: later = given := by
        simpa using h
      rw [List.forall_mem_cons]
      exact ⟨Value.ofJson_orderly hv, Value.ofJsonMembers_orderly hlater⟩

end

end JsxControl
