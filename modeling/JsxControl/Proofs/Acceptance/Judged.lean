import JsxControl.Complaint
import JsxControl.Proofs.Outcome

/-!
# Answers and judgements

Checks on grammatical markup have an answer: a value, or the first thing to complain of. Where only
it counts whether there is a complaint, the answer is a judgement: `Judged P x a` says of a
computation `x` that it gives `a` if `P` holds, and that it complains of the markup if `P` does not.
Nothing else can go wrong.
-/

namespace JsxControl

variable {α β : Type}

/-! ### Answers -/

/-- A value, unless there is something to complain of. -/
def answer (c? : Option Complaint) (a : α) : Except Fault α :=
  match c? with
  | none => .ok a
  | some c => .error (.complaint c)

@[simp] lemma answer_none (a : α) : answer none a = .ok a := rfl

@[simp] lemma answer_some (c : Complaint) (a : α) : answer (some c) a = .error (.complaint c) := rfl

/-- Of two computations in a row the first one complains first. -/
lemma answer_bind {c? d? : Option Complaint} {x : Except Fault α} {a : α} {b : β}
    {f : α → Except Fault β} (hx : x = answer c? a) (hf : c? = none → f a = answer d? b) :
    x >>= f = answer (c?.or d?) b := by
  rw [hx]
  cases c? with
  | none => exact hf rfl
  | some c => rfl

lemma answer_bind_ok {c? : Option Complaint} {x : Except Fault α} {a : α} {b : β}
    {f : α → Except Fault β} (hx : x = answer c? a) (hf : c? = none → f a = .ok b) :
    x >>= f = answer c? b := by
  rw [answer_bind hx fun hc => (hf hc).trans (answer_none b).symm, Option.or_none]

@[simp] lemma map_answer (f : α → β) (c? : Option Complaint) (a : α) :
    f <$> answer c? a = answer c? (f a) := by
  cases c? <;> rfl

/-! ### Judgements -/

/-- A computation gives a value if a condition holds, and a complaint otherwise. -/
structure Judged (P : Prop) (x : Except Fault α) (a : α) : Prop where
  accepted : P → x = .ok a
  refused : ¬P → ∃ c, x = .error (.complaint c)

namespace Judged

variable {P Q : Prop} {x : Except Fault α} {a : α}

lemma congr (h : Judged P x a) (hPQ : Q ↔ P) : Judged Q x a :=
  ⟨fun hQ => h.accepted (hPQ.mp hQ), fun hQ => h.refused fun hP => hQ (hPQ.mpr hP)⟩

lemma of_answer {c? : Option Complaint} (h : x = answer c? a) (hP : c? = none ↔ P) :
    Judged P x a := by
  cases c? with
  | none => exact ⟨fun _ => h, fun hn => absurd (hP.mp rfl) hn⟩
  | some c => exact ⟨fun hp => absurd (hP.mpr hp) (by simp), fun _ => ⟨c, h⟩⟩

end Judged

/-! ### Places -/

/-- The nodes among some values have no notes. -/
def Plain (context : List Value) : Prop := ∀ n : Node, .node n ∈ context → n.origin.notes = []

/-- The place of a node that is located: its location, with the offsets of its range if it has one.
Notes are not heeded. -/
def Value.place? : Value → Option Location
  | .node n => n.origin.loc.map (·.withOffsets n.origin.range)
  | .scalar _ | .list _ | .record _ => none

lemma Origin.place?_eq {n : Node} (h : n.origin.notes = []) :
    n.origin.place? = .ok (Value.node n).place? := by
  cases hloc : n.origin.loc <;>
    simp [place?, location, offsets, note?, Entries.get?, h, hloc, Value.place?]

/-- Among nodes without notes the place of a complaint is that of the first one that is located. -/
lemma Location.firstOf_eq {values : List Value} (h : Plain values) :
    firstOf values = .ok (values.findSome? Value.place?) := by
  induction values with
  | nil => rfl
  | cons v rest ih =>
    have hrest := ih fun n hn => h n (by simp [hn])
    cases v with
    | node n =>
      rw [firstOf, Origin.place?_eq (h n (by simp)), ok_bind, List.findSome?_cons]
      cases (Value.node n).place? with
      | none => exact hrest
      | some place => rfl
    | scalar | list | record => exact hrest

lemma Fault.complain_eq_complaint {context : List Value} (h : Plain context) (rule : Rule)
    (message : String) : complain rule message context =
      .complaint ⟨rule, message, context.reverse.findSome? Value.place?⟩ := by
  have hreverse : Plain context.reverse := fun n hn => h n (by simpa using hn)
  rw [complain, Location.ofContext, Location.firstOf_eq hreverse]

end JsxControl
