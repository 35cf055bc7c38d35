import JsxControl.Complaint
import JsxControl.Proofs.Location.Unlocated

/-!
# Looking into trees without locations

Two computations are compared here, one on a tree and one on the same tree without locations.
`Forgets P f` says that they come to the same: the second gives `f a` where the first gives `a`, and
where the first fails, the second fails in the same way, but for the place that a complaint names.
The relation goes along `bind`, with `P` for what has to be known of `a`.
-/

namespace JsxControl

variable {α β γ δ : Type}

/-! ### Computations that forget -/

/-- A computation gives what another one does, once something is forgotten of it. -/
inductive Forgets (P : α → Prop) (f : α → β) : Except Fault α → Except Fault β → Prop
  | ok {a : α} (h : P a) : Forgets P f (.ok a) (.ok (f a))
  | error {fault fault' : Fault} (h : fault.unplaced = fault'.unplaced) :
    Forgets P f (.error fault) (.error fault')

namespace Forgets

variable {P : α → Prop} {f : α → β} {Q : γ → Prop} {g : γ → δ} {x : Except Fault α}
  {y : Except Fault β}

lemma fault (fault : Fault) : Forgets P f (.error fault) (.error fault) := .error rfl

lemma bind {next : α → Except Fault γ} {next' : β → Except Fault δ} (h : Forgets P f x y)
    (hnext : ∀ a, P a → Forgets Q g (next a) (next' (f a))) :
    Forgets Q g (x >>= next) (y >>= next') := by
  cases h with
  | ok h => exact hnext _ h
  | error h => exact .error h

lemma map {k : α → γ} {k' : β → δ} (h : Forgets P f x y)
    (hk : ∀ a, P a → Q (k a) ∧ k' (f a) = g (k a)) :
    Forgets Q g (k <$> x) (k' <$> y) := by
  cases h with
  | ok h =>
    rw [map_ok, map_ok, (hk _ h).2]
    exact .ok (hk _ h).1
  | error h => exact .error h

/-- Where the one gives exactly what the other does with something forgotten of it. -/
lemma of_eq (h : y = f <$> x) (hP : ∀ a, x = .ok a → P a) : Forgets P f x y := by
  subst h
  cases x with
  | ok a => exact .ok (hP a rfl)
  | error => exact .fault _

/-- The two ways in which two computations come to the same. -/
lemma outcome (h : Forgets P f x y) :
    (∃ a, x = .ok a ∧ y = .ok (f a)) ∨
      ∃ fault fault', x = .error fault ∧ y = .error fault' ∧ fault.unplaced = fault'.unplaced := by
  cases h with
  | ok => exact .inl ⟨_, rfl, rfl⟩
  | error h => exact .inr ⟨_, _, rfl, rfl, h⟩

end Forgets

/-- Computations with the same result that have nothing to forget. -/
abbrev Matches (x y : Except Fault α) : Prop := Forgets (fun _ => True) id x y

lemma Forgets.refl (x : Except Fault α) : Matches x x := by
  cases x with
  | ok a => exact .ok trivial
  | error => exact .fault _

/-- Computations that give values which are the same without locations. -/
abbrev Unlocates : Except Fault Value → Except Fault Value → Prop :=
  Forgets Value.Noteless Value.unlocated

/-! ### Single values -/

namespace Value

variable {v : Value}

@[simp] lemma isA_unlocated (v : Value) (kind : Kind) : v.unlocated.isA kind = v.isA kind := by
  cases v <;> simp [isA]

@[simp] lemma isNull_unlocated (v : Value) : v.unlocated.isNull = v.isNull := by
  cases v <;> simp [isNull]

@[simp] lemma isSet_unlocated (v : Value) : v.unlocated.isSet = v.isSet := by
  cases v with
  | scalar s => rw [unlocated_scalar]
  | list items => cases items <;> simp [isSet]
  | record | node => simp [isSet]

@[simp] lemma isMarkup_unlocated (v : Value) : v.unlocated.isMarkup = v.isMarkup := by
  cases v with
  | scalar s => rw [unlocated_scalar]
  | list | record | node => simp [isMarkup]

@[simp] lemma key_unlocated (v : Value) : v.unlocated.key = v.key := by
  cases v <;> simp [key]

@[simp] lemma toText_unlocated (v : Value) : v.unlocated.toText = v.toText := by
  cases v with
  | scalar s => rw [unlocated_scalar]
  | list | record | node => simp [toText]

@[simp] lemma spelling_unlocated (v : Value) : v.unlocated.spelling = v.spelling := by
  cases v with
  | scalar s => rw [unlocated_scalar]
  | list | record | node => simp [spelling]

@[simp] lemma toTexts_map_unlocated (vs : List Value) :
    toTexts (vs.map unlocated) = toTexts vs := by
  induction vs with
  | nil => rfl
  | cons v rest ih => rw [List.map_cons, toTexts, toTexts, toText_unlocated, ih]

lemma displayItems_unlocated {items : List Value}
    (h : ∀ item ∈ items, item.unlocated.display = item.display) :
    displayItems (items.map unlocated) = displayItems items := by
  induction items with
  | nil => rfl
  | cons item rest ih =>
    rw [List.forall_mem_cons] at h
    rw [List.map_cons, displayItems, displayItems, h.1, ih h.2]

lemma displayFields_unlocated {fields : List (String × Value)}
    (h : ∀ entry ∈ fields, entry.2.unlocated.display = entry.2.display) :
    displayFields (fields.map fun entry => (entry.1, entry.2.unlocated)) =
      displayFields fields := by
  induction fields with
  | nil => rfl
  | cons entry rest ih =>
    rw [List.forall_mem_cons] at h
    obtain ⟨name, v⟩ := entry
    rw [List.map_cons, displayFields, displayFields, h.1, ih h.2]

/-- A value is displayed without its locations. -/
@[simp] lemma display_unlocated (v : Value) : v.unlocated.display = v.display := by
  induction v using part_induction with
  | scalar s => rw [unlocated_scalar]
  | record members => rw [unlocated_record]
  | list items ih => rw [unlocated_list, display, display, displayItems_unlocated ih]
  | node n ih =>
    obtain ⟨kind, fields, origin⟩ := n
    rw [unlocated_node, Node.unlocated_mk, display, display, Node.display, Node.display,
      displayFields_unlocated ih]

@[simp] lemma shown_unlocated (v : Value) : v.unlocated.shown = v.shown := by
  cases v with
  | scalar s => rw [unlocated_scalar]
  | list items => simpa [shown] using display_unlocated (.list items)
  | record members => rw [unlocated_record]
  | node n => simpa [shown] using display_unlocated (.node n)

/-- A text has no locations to forget. -/
lemma unlocated_eq_scalar_iff {s : Scalar} : v.unlocated = .scalar s ↔ v = .scalar s := by
  cases v <;> simp

/-! ### Parts of values -/

lemma Noteless.field {u : Value} {name : String} (h : v.Noteless) (hu : v.field name = .ok u) :
    u.Noteless := by
  cases v with
  | node n =>
    obtain ⟨-, hget⟩ := (Node.field_eq_ok_iff h.here).mp hu
    exact Throughout.field h (Entries.mem_of_get? hget)
  | scalar | list | record => simp [Value.field] at hu

lemma field_unlocated (h : v.Noteless) (name : String) :
    v.unlocated.field name = unlocated <$> v.field name := by
  cases v with
  | node n =>
    have hnotes := h.here
    cases hget : Entries.get? n.fields name <;> cases hother : n.kind.isOther <;>
      simp [Node.field, Entries.get?_map, hget, hother, Origin.note?, hnotes]
  | scalar | list | record => simp [Value.field]

lemma unlocates_field (h : v.Noteless) (name : String) :
    Unlocates (v.field name) (v.unlocated.field name) :=
  .of_eq (field_unlocated h name) fun _ hu => h.field hu

lemma forgets_items (h : v.Noteless) :
    Forgets (fun items => ∀ item ∈ items, item.Noteless) (List.map unlocated) v.items
      v.unlocated.items := by
  cases v with
  | scalar s =>
    cases s with
    | text s =>
      refine .of_eq (by simp [items, Function.comp_def]) fun characters hcharacters item hitem => ?_
      obtain rfl := by simpa [items] using hcharacters
      obtain ⟨c, -, rfl⟩ := List.mem_map.mp hitem
      exact .scalar _
    | null | bool | int | float => exact .fault _
  | list items =>
    rw [unlocated_list]
    exact .ok (noteless_list.mp h)
  | record members =>
    refine .of_eq (by simp [items, Function.comp_def]) fun names hnames item hitem => ?_
    obtain rfl := by simpa [items] using hnames
    obtain ⟨member, -, rfl⟩ := List.mem_map.mp hitem
    exact .scalar _
  | node n => exact .fault _

/-! ### Names -/

lemma unlocates_tagName (h : v.Noteless) : Unlocates v.tagName v.unlocated.tagName := by
  unfold tagName
  rw [isA_unlocated]
  split_ifs
  · refine (unlocates_field h _).bind fun opening hopening => ?_
    refine (unlocates_field hopening _).bind fun name hname => ?_
    rw [isA_unlocated]
    split_ifs
    · exact unlocates_field hname _
    · exact .ok (.scalar _)
  · exact .ok (.scalar _)

lemma unlocates_attributeName (h : v.Noteless) :
    Unlocates v.attributeName v.unlocated.attributeName := by
  unfold attributeName
  rw [isA_unlocated]
  split_ifs
  · refine (unlocates_field h _).bind fun name hname => ?_
    rw [isA_unlocated]
    split_ifs
    · refine (unlocates_field hname _).bind fun first hfirst => ?_
      refine (unlocates_field hfirst _).bind fun space _ => ?_
      refine (unlocates_field hname _).bind fun second hsecond => ?_
      refine (unlocates_field hsecond _).bind fun bare _ => ?_
      rw [shown_unlocated, shown_unlocated]
      exact .ok (.scalar _)
    · exact unlocates_field hname _
  · exact .ok (.scalar _)

end Value

namespace Construct

variable {v : Value}

lemma ofValue?_matches (h : v.Noteless) : Matches (ofValue? v) (ofValue? v.unlocated) := by
  refine (Value.unlocates_tagName h).bind fun name _ => ?_
  rw [Value.key_unlocated]
  exact .refl _

lemma isTagOf_matches (c : Construct) (h : v.Noteless) :
    Matches (c.isTagOf v) (c.isTagOf v.unlocated) := by
  refine (Value.unlocates_tagName h).bind fun name _ => ?_
  cases name with
  | scalar s =>
    rw [Value.unlocated_scalar]
    exact .refl _
  | list | record | node => simpa using Forgets.refl _

end Construct

namespace Value

variable {v : Value}

lemma isReferenceGuard_matches (h : v.Noteless) :
    Matches v.isReferenceGuard v.unlocated.isReferenceGuard := by
  have hliteral {first : Value} (hfirst : first.Noteless) :
      Matches (do return (Construct.ofName? (← (← first.field "value").key)).isSome)
        (do return (Construct.ofName? (← (← first.unlocated.field "value").key)).isSome) := by
    refine (unlocates_field hfirst _).bind fun value _ => ?_
    rw [key_unlocated]
    exact .refl _
  unfold isReferenceGuard
  rw [isA_unlocated]
  split_ifs
  · refine (unlocates_field h _).bind fun callee hcallee => ?_
    rw [isA_unlocated]
    split_ifs
    · exact .refl _
    · refine (unlocates_field hcallee _).bind fun name _ => ?_
      cases name with
      | scalar s =>
        rw [unlocated_scalar]
        cases s with
        | text s =>
          dsimp only
          split_ifs
          · exact .refl _
          · refine (unlocates_field h _).bind fun arguments harguments => ?_
            cases arguments with
            | scalar s =>
              rw [unlocated_scalar]
              exact .refl _
            | record members =>
              rw [unlocated_record]
              exact .refl _
            | list items =>
              rw [unlocated_list]
              cases items with
              | nil => exact .refl _
              | cons first rest =>
                simp only [List.map_cons, items, ok_bind, isA_unlocated]
                split_ifs
                · exact hliteral (harguments.item List.mem_cons_self)
                · exact .refl _
            | node n =>
              rw [unlocated_node]
              exact .refl _
        | null | bool | int | float => exact .refl _
      | list | record | node => simpa using Forgets.refl _
  · exact .refl _

end Value

end JsxControl
