import JsxControl.Expand.Construct
import JsxControl.Proofs.Location.Unlocated
import JsxControl.Proofs.Outcome
import JsxControl.Source.Text

/-!
# What does not complain

Reading a tree, looking into it and writing it can go wrong in many ways where the tree is
malformed, but none of them is a complaint: complaints are made of broken rules, and only the
expansion of a construct knows the rules.
-/

namespace JsxControl

variable {α β : Type} {P : Rule → Prop}

/-! ### Computations that complain of some rules only -/

/-- If a computation ends in a complaint, it is about a rule with a property. It may end in any
other fault. -/
def Complains (P : Rule → Prop) (x : Except Fault α) : Prop :=
  ∀ c, x = .error (.complaint c) → P c.rule

@[simp] lemma complains_ok (a : α) : Complains P (.ok a) := by
  simp [Complains]

@[simp] lemma complains_error {fault : Fault} :
    Complains P (.error fault : Except Fault α) ↔ ∀ c, fault = .complaint c → P c.rule := by
  simp [Complains]

@[simp] lemma complains_bind {x : Except Fault α} {f : α → Except Fault β} :
    Complains P (x >>= f) ↔ Complains P x ∧ ∀ a, x = .ok a → Complains P (f a) := by
  cases x <;> simp

/-- A computation goes on after one that complains of the same rules. -/
lemma Complains.bind {x : Except Fault α} {f : α → Except Fault β} (hx : Complains P x)
    (hf : ∀ a, Complains P (f a)) : Complains P (x >>= f) :=
  complains_bind.mpr ⟨hx, fun a _ => hf a⟩

@[simp] lemma complains_map {x : Except Fault α} {f : α → β} :
    Complains P (f <$> x) ↔ Complains P x := by
  cases x <;> simp

@[simp] lemma complains_ite {p : Prop} [Decidable p] {x y : Except Fault α} :
    Complains P (if p then x else y) ↔ (p → Complains P x) ∧ (¬p → Complains P y) := by
  split_ifs with h <;> simp [h]

lemma complains_mapM {list : List α} {f : α → Except Fault β} (h : ∀ a ∈ list, Complains P (f a)) :
    Complains P (list.mapM f) := by
  induction list with
  | nil => simp
  | cons a rest ih =>
    rw [List.forall_mem_cons] at h
    simpa [h.1] using fun _ _ => ih h.2

/-! ### Reading -/

namespace Json

@[simp] lemma silent_member (json : Json) (name : String) : Complains P (json.member name) := by
  cases json with
  | record members => cases h : Entries.get? members name <;> simp [member, h]
  | scalar | list => simp [member]

@[simp] lemma silent_parts (json : Json) : Complains P json.parts := by
  unfold parts
  split <;> simp

@[simp] lemma silent_nth (json : Json) (i : Nat) : Complains P (json.nth i) := by
  unfold nth
  split
  · simp
  · simp only [complains_bind, silent_parts, true_and]
    intro list _
    split <;> simp

end Json

@[simp] lemma Position.silent_ofJson (json : Json) : Complains P (ofJson json) := by
  simp [ofJson]

@[simp] lemma Location.silent_ofMembers (members : List (String × Json)) :
    Complains P (ofMembers members) := by
  unfold ofMembers
  split <;> simp

@[simp] lemma Origin.silent_rangeOfMembers (members : List (String × Json)) :
    Complains P (rangeOfMembers members) := by
  unfold rangeOfMembers
  split
  · split <;> simp
  · split <;> simp
  · simp only [complains_bind, Json.silent_parts, true_and]
    intro list _
    split <;> simp

namespace Kind

lemma silent_fill (kind : Kind) (given : List (String × Value)) (specs : List FieldSpec) :
    Complains P (kind.fill given specs) := by
  induction specs with
  | nil => simp [fill]
  | cons spec rest ih =>
    rw [fill]
    split <;> simp [ih]

@[simp] lemma silent_arrange (kind : Kind) (given : List (String × Value)) :
    Complains P (kind.arrange given) := by
  simp [arrange, silent_fill]

end Kind

mutual

lemma Value.silent_ofJson (json : Json) : Complains P (ofJson json) := by
  match json with
  | .scalar s => simp [ofJson]
  | .list items => simp [ofJson, silent_ofJsonItems items]
  | .record members =>
    rw [ofJson]
    split
    · simp
    · simp only [complains_bind, Location.silent_ofMembers, Origin.silent_rangeOfMembers, true_and]
      intro _ _ _ _
      split
      · simp [silent_ofJsonMembers _ members]
      · simp

lemma Value.silent_ofJsonItems (items : List Json) : Complains P (ofJsonItems items) := by
  match items with
  | [] => simp [ofJsonItems]
  | item :: rest => simp [ofJsonItems, silent_ofJson item, silent_ofJsonItems rest]

lemma Value.silent_ofJsonMembers (kind : Kind) (members : List (String × Json)) :
    Complains P (ofJsonMembers kind members) := by
  match members with
  | [] => simp [ofJsonMembers]
  | (key, value) :: rest =>
    rw [ofJsonMembers]
    split
    · exact silent_ofJsonMembers kind rest
    · simp [silent_ofJson value, silent_ofJsonMembers kind rest]

end

/-! ### Looking into values -/

@[simp] lemma Node.silent_field (n : Node) (name : String) : Complains P (n.field name) := by
  unfold field
  split_ifs
  · simp
  · split
    · simp
    · split
      · exact Value.silent_ofJson _
      · simp

@[simp] lemma Kind.silent_isMarkup (kind : Kind) : Complains P kind.isMarkup := by
  unfold isMarkup
  split <;> simp

namespace Value

variable (v : Value)

@[simp] lemma silent_field (name : String) : Complains P (v.field name) := by
  cases v <;> simp [field]

@[simp] lemma silent_items : Complains P v.items := by
  unfold items
  split <;> simp

@[simp] lemma silent_toText : Complains P v.toText := by
  unfold toText
  split <;> simp

@[simp] lemma silent_spelling : Complains P v.spelling := by
  unfold spelling
  split <;> simp

@[simp] lemma silent_toTexts (values : List Value) : Complains P (toTexts values) := by
  induction values with
  | nil => simp [toTexts]
  | cons v rest ih => simp [toTexts, ih]

@[simp] lemma silent_key : Complains P v.key := by
  cases v <;> simp [key]

@[simp] lemma silent_isMarkup : Complains P v.isMarkup := by
  unfold isMarkup
  split <;> simp

@[simp] lemma silent_tagName : Complains P v.tagName := by
  simp [tagName]

@[simp] lemma silent_attributeName : Complains P v.attributeName := by
  simp [attributeName]

@[simp] lemma silent_isReferenceGuard : Complains P v.isReferenceGuard := by
  rw [isReferenceGuard]
  split
  · refine .bind (silent_field v _) fun callee => ?_
    split
    · simp
    refine .bind (silent_field callee _) fun name => ?_
    split
    · split
      · simp
      refine .bind (silent_field v _) fun arguments => ?_
      split
      · simp
      refine .bind (silent_items _) fun list => ?_
      split <;> simp
    · simp
  · simp

end Value

namespace Construct

@[simp] lemma silent_ofValue? (v : Value) : Complains P (ofValue? v) := by
  simp [ofValue?]

@[simp] lemma silent_isTagOf (c : Construct) (v : Value) : Complains P (c.isTagOf v) := by
  simp only [isTagOf, complains_bind, Value.silent_tagName, true_and]
  intro name _
  split <;> simp

end Construct

/-! ### Writing -/

namespace Source

variable (v : Value)

@[simp] lemma silent_admit (role : Role) : Complains P <| role.admit v := by
  unfold Role.admit
  split <;> simp

@[simp] lemma silent_level : Complains P (level v) := by
  cases v with
  | node n =>
    rw [level, levelOfNode]
    split <;> simp
  | scalar | list | record => simp [level]

@[simp] lemma silent_enclose (least : Nat) (written : Value) :
    Complains P (enclose least v written) := by
  simp [enclose]

@[simp] lemma silent_finish (role : Role) (written : Value) :
    Complains P (role.finish v written) := by
  cases role <;> simp [Role.finish]

@[simp] lemma silent_joined (separator : String) (parts : List Value) :
    Complains P (joined separator parts) := by
  simp [joined]

@[simp] lemma silent_isIntegerLiteral : Complains P (isIntegerLiteral v) := by
  rw [isIntegerLiteral]
  split
  · refine .bind (v.silent_field _) fun value => ?_
    split <;> simp
  · simp

@[simp] lemma silent_unary (operator operand : Value) : Complains P (unary operator operand) := by
  simp [unary]

@[simp] lemma silent_comment (kind : Kind) : Complains P (comment kind) := by
  simp [comment]

@[simp] lemma silent_functionName : Complains P (functionName v) := by
  simp [functionName]

@[simp] lemma silent_malformed (kind : Kind) : Complains P (malformed kind) := by
  simp [malformed]

end Source

open Source

/-- Nothing is complained of when a value is written, however it is asked for. -/
structure Value.WrittenSilently (P : Rule → Prop) (v : Value) : Prop where
  source : ∀ depth, Complains P (v.sourceAt depth)
  parts : ∀ depth role, Complains P (v.sourceParts depth role)
  name : ∀ depth, Complains P (v.nameAt depth)
  body : ∀ depth, Complains P (v.bodyAt depth)

namespace Node

variable {kind : Kind} {fields : List (String × Value)} {origin : Origin}

lemma silent_sourceAt (h : ∀ entry ∈ fields, entry.2.WrittenSilently P) (depth : Nat) :
    Complains P ((mk kind fields origin).sourceAt depth) := by
  rcases fields with _ | ⟨⟨_, u⟩, _ | ⟨⟨_, v⟩, _ | ⟨⟨_, w⟩, _ | ⟨⟨_, x⟩, _ | ⟨⟨_, y⟩, _ |
      ⟨⟨_, z⟩, _ | _⟩⟩⟩⟩⟩⟩
  · cases kind <;> simp [sourceAt]
  all_goals simp only [List.forall_mem_cons] at h
  · cases kind <;> simp [sourceAt, h.1.source, h.1.parts]
  · cases kind <;> simp [sourceAt, h.1.source, h.1.parts, h.2.1.source]
  · cases kind <;> simp [sourceAt, h.1.source, h.1.parts, h.2.1.source, h.2.1.parts,
      h.2.2.1.source, h.2.2.1.body, h.1.name]
  · cases kind <;> simp [sourceAt, h.1.source, h.2.1.source]
  · cases kind <;> simp [sourceAt]
  · cases kind <;> simp [sourceAt, h.1.source, h.2.1.source]
  · cases kind <;> simp [sourceAt]

lemma silent_nameAt (h : ∀ entry ∈ fields, entry.2.WrittenSilently P) (depth : Nat) :
    Complains P ((mk kind fields origin).nameAt depth) := by
  rw [nameAt]
  split
  · simp
  · induction fields with
    | nil => simp [nameAmong]
    | cons entry rest ih =>
      rw [List.forall_mem_cons] at h
      simp [nameAmong, h.1.source, ih h.2]

lemma silent_bodyAt (h : ∀ entry ∈ fields, entry.2.WrittenSilently P) (depth : Nat) :
    Complains P ((mk kind fields origin).bodyAt depth) := by
  rw [bodyAt]
  split
  · simp
  · induction fields with
    | nil => simp [bodyAmong]
    | cons entry rest ih =>
      rw [List.forall_mem_cons] at h
      simp [bodyAmong, h.1.parts, ih h.2]

end Node

namespace Value

lemma silent_sourceItems {items : List Value} (h : ∀ item ∈ items, item.WrittenSilently P)
    (depth : Nat) (role : Role) : Complains P (sourceItems depth role items) := by
  induction items with
  | nil => simp [sourceItems]
  | cons item rest ih =>
    rw [List.forall_mem_cons] at h
    simp [sourceItems, h.1.source, ih h.2]

lemma writtenSilently (v : Value) : v.WrittenSilently P := by
  induction v using part_induction with
  | scalar s =>
    refine ⟨fun depth => ?_, fun depth role => ?_, fun depth => ?_, fun depth => ?_⟩
    · simp [sourceAt]
    · cases s <;> simp [sourceParts]
    · simp [nameAt]
    · simp [bodyAt]
  | record members =>
    refine ⟨fun depth => ?_, fun depth role => ?_, fun depth => ?_, fun depth => ?_⟩
    · simp [sourceAt]
    · simp [sourceParts]
    · simp [nameAt]
    · simp [bodyAt]
  | list items ih =>
    refine ⟨fun depth => ?_, fun depth role => ?_, fun depth => ?_, fun depth => ?_⟩
    · simp [sourceAt]
    · simpa only [sourceParts] using silent_sourceItems ih depth role
    · simp [nameAt]
    · simp [bodyAt]
  | node n ih =>
    obtain ⟨kind, fields, origin⟩ := n
    refine ⟨fun depth => ?_, fun depth role => ?_, fun depth => ?_, fun depth => ?_⟩
    · simpa only [sourceAt] using Node.silent_sourceAt ih depth
    · simp [sourceParts]
    · simpa only [nameAt] using Node.silent_nameAt ih depth
    · simpa only [bodyAt] using Node.silent_bodyAt ih depth

/-- Whatever a tree is, nothing in it is complained of when it is written. -/
@[simp] lemma silent_source (v : Value) : Complains P v.source :=
  v.writtenSilently.source 0

end Value

/-! ### Complaining -/

@[simp] lemma Origin.silent_place? (o : Origin) : Complains P o.place? := by
  have hlocation : Complains P o.location := by
    unfold location
    split <;> simp
  have hoffsets : Complains P o.offsets := by
    unfold offsets
    split <;> simp
  refine hlocation.bind fun l? => ?_
  split <;> simp [hoffsets]

lemma Location.silent_firstOf (values : List Value) : Complains P (firstOf values) := by
  induction values with
  | nil => simp [firstOf]
  | cons v rest ih =>
    cases v with
    | node n =>
      refine n.origin.silent_place?.bind fun place? => ?_
      cases place? <;> simp [ih]
    | scalar | list | record => exact ih

/-- A complaint about a rule is one about that rule, or another fault if it cannot be placed. -/
lemma complains_complain {rule : Rule} (hrule : P rule) (message : String) (context : List Value) :
    Complains P (.error (.complain rule message context) : Except Fault α) := by
  have hplace : Complains P (Location.ofContext context) := Location.silent_firstOf _
  rw [Fault.complain]
  cases hcontext : Location.ofContext context with
  | ok place => simp [hrule]
  | error fault =>
    rw [hcontext] at hplace
    simpa using hplace

end JsxControl
