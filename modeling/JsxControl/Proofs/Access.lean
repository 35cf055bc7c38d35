import JsxControl.Expand.Construct
import JsxControl.Proofs.Outcome

/-!
# Looking into values without fault

What a value shows of itself where looking into it does not fail, and something that is nothing in
particular where it does.
-/

namespace JsxControl

namespace Value

/-- The content of a field, null if there is none. -/
def content (v : Value) (name : String) : Value := (v.field name).toOption.getD .null

/-- What a value is made of; nothing if it cannot be gone through. -/
def parts (v : Value) : List Value := v.items.toOption.getD []

/-- Whether a value is a node whose tag begins with `JSX`. -/
def isJsx (v : Value) : Bool := v.isMarkup.toOption.getD false

/-- The construct that a value is, if it is one. -/
def construct? (v : Value) : Option Construct := (Construct.ofValue? v).toOption.join

/-- Whether a value is a statement that checks that a pseudo-element exists. -/
def isGuardStatement (v : Value) : Bool :=
  v.isA .expressionStatement && (v.content "expression").isReferenceGuard.toOption.getD false

@[simp] lemma field_node (n : Node) (name : String) : (Value.node n).field name = n.field name := rfl

@[simp] lemma isA_node (kind : Kind) (n : Node) :
    (Value.node n).isA kind = decide (n.kind = kind) := rfl

lemma isA_iff {v : Value} {kind : Kind} :
    v.isA kind = true ↔ ∃ n : Node, v = .node n ∧ n.kind = kind := by
  cases v with
  | node n => simp
  | scalar | list | record => simp [isA]

/-! ### Where looking does not fail -/

lemma content_of_field {v u : Value} {name : String} (h : v.field name = .ok u) :
    v.content name = u := by
  simp [content, h, Except.toOption]

lemma content_of_node_field {n : Node} {u : Value} {name : String} (h : n.field name = .ok u) :
    (Value.node n).content name = u :=
  content_of_field (v := .node n) h

lemma parts_of_items {v : Value} {list : List Value} (h : v.items = .ok list) : v.parts = list := by
  simp [parts, h, Except.toOption]

lemma isJsx_of_isMarkup {v : Value} {b : Bool} (h : v.isMarkup = .ok b) : v.isJsx = b := by
  simp [isJsx, h, Except.toOption]

lemma construct?_of_ofValue? {v : Value} {c? : Option Construct}
    (h : Construct.ofValue? v = .ok c?) : v.construct? = c? := by
  simp [construct?, h, Except.toOption]

lemma key_eq_ok_iff {v : Value} {s : Scalar} : v.key = .ok s ↔ v = .scalar s := by
  cases v <;> simp [key]

end Value

namespace Construct

lemma ofName?_eq_some_iff {s : Scalar} {c : Construct} : ofName? s = some c ↔ s = .text c.name := by
  constructor
  · intro h
    simpa [eq_comm] using List.find?_some h
  · rintro rfl
    cases c <;> decide

@[simp] lemma ofName?_name (c : Construct) : ofName? (.text c.name) = some c :=
  ofName?_eq_some_iff.mpr rfl

lemma ofValue?_eq_ok_some_iff {v : Value} {c : Construct} :
    ofValue? v = .ok (some c) ↔ v.tagName = .ok (.text c.name) := by
  simp [ofValue?, ofName?_eq_some_iff, Value.key_eq_ok_iff]

lemma isTagOf_eq_ok {v : Value} {c : Construct} {b : Bool} (h : c.isTagOf v = .ok b) :
    b = true ↔ v.tagName = .ok (.text c.name) := by
  obtain ⟨name, hname, h⟩ := bind_eq_ok_iff.mp h
  rw [hname]
  split at h
  · obtain rfl : decide _ = b := by simpa using h
    simp
  · next hother =>
    obtain rfl : false = b := by simpa using h
    simpa using fun heq => hother _ heq

end Construct

lemma Value.construct?_eq_some_iff {v : Value} {c : Construct} :
    v.construct? = some c ↔ v.tagName = .ok (.text c.name) := by
  rw [← Construct.ofValue?_eq_ok_some_iff, construct?]
  cases h : Construct.ofValue? v <;> simp [Except.toOption]

lemma Construct.isTagOf_eq_ok_iff {v : Value} {c : Construct} {b : Bool} (h : c.isTagOf v = .ok b) :
    b = true ↔ v.construct? = some c := by
  rw [Value.construct?_eq_some_iff, isTagOf_eq_ok h]

@[simp] lemma Value.construct?_scalar (s : Scalar) : (Value.scalar s).construct? = none := rfl

@[simp] lemma Value.construct?_list (items : List Value) :
    (Value.list items).construct? = none := rfl

@[simp] lemma Value.construct?_record (members : List (String × Json)) :
    (Value.record members).construct? = none := rfl

/-- Only a node bears the tag of a construct. -/
lemma Value.eq_node_of_construct? {v : Value} {c : Construct} (h : v.construct? = some c) :
    ∃ n : Node, v = .node n ∧ n.kind = .jsxElement := by
  rw [Value.construct?_eq_some_iff] at h
  cases v with
  | node n =>
    refine ⟨n, rfl, ?_⟩
    by_contra hkind
    simp [tagName, isA, hkind] at h
  | scalar | list | record => simp [tagName, isA] at h

lemma Node.kind_of_construct? {n : Node} {c : Construct}
    (h : (Value.node n).construct? = some c) : n.kind = .jsxElement := by
  obtain ⟨_, hnode, hkind⟩ := Value.eq_node_of_construct? h
  exact Value.node.inj hnode ▸ hkind

lemma Construct.ofValue?_of_kind {n : Node} (h : n.kind ≠ .jsxElement) :
    ofValue? (.node n) = .ok none := by
  simp [ofValue?, Value.tagName, h, Value.key]
  rfl

lemma Value.construct?_of_kind {n : Node} (h : n.kind ≠ .jsxElement) :
    (Value.node n).construct? = none :=
  construct?_of_ofValue? (Construct.ofValue?_of_kind h)

end JsxControl
