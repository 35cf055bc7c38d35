import JsxControl.Expand.Settled
import Mathlib.Tactic.Common

/-!
# Outcomes

What a computation that may fail comes to, by its parts. `Yields` is for those that fail in no other
way than by not coming to an end.

A pass that stops half-way has an outcome as well, once the value at which it stopped is left out:
`Settled.toExcept` turns the operations on passes into those on computations that may fail.
-/

namespace JsxControl

variable {ε α β : Type}

/-! ### Computations that may fail -/

@[simp] lemma ok_bind (a : α) (f : α → Except ε β) : (Except.ok a >>= f) = f a := rfl

@[simp] lemma error_bind (e : ε) (f : α → Except ε β) :
    (Except.error e >>= f) = Except.error e := rfl

@[simp] lemma map_ok (f : α → β) (a : α) : f <$> (Except.ok a : Except ε α) = Except.ok (f a) := rfl

@[simp] lemma pure_eq_ok (a : α) : (pure a : Except ε α) = Except.ok a := rfl

@[simp] lemma bind_eq_ok_iff {x : Except ε α} {f : α → Except ε β} {b : β} :
    x >>= f = Except.ok b ↔ ∃ a, x = Except.ok a ∧ f a = Except.ok b := by
  cases x <;> simp

@[simp] lemma map_eq_ok_iff {x : Except ε α} {f : α → β} {b : β} :
    f <$> x = Except.ok b ↔ ∃ a, x = Except.ok a ∧ f a = b := by
  cases x <;> simp

/-! ### Computations that may not come to an end -/

/-- A computation gives what has a property, unless it does not come to an end. The latter is ruled
out where `J` does not hold. -/
inductive Yields (J : Prop) (P : α → Prop) : Except Fault α → Prop
  | ok {a : α} (h : P a) : Yields J P (.ok a)
  | endless (hJ : J) : Yields J P (.error .endless)

namespace Yields

variable {J : Prop} {P : α → Prop} {Q : β → Prop} {x : Except Fault α}

lemma bind {f : α → Except Fault β} (h : Yields J P x) (hf : ∀ a, P a → Yields J Q (f a)) :
    Yields J Q (x >>= f) := by
  cases h with
  | ok h => exact hf _ h
  | endless hJ => exact .endless hJ

lemma map {f : α → β} (h : Yields J P x) (hf : ∀ a, P a → Q (f a)) : Yields J Q (f <$> x) := by
  cases h with
  | ok h => exact .ok (hf _ h)
  | endless hJ => exact .endless hJ

lemma exists_ok (h : Yields False P x) : ∃ a, x = .ok a ∧ P a := by
  cases h with
  | ok h => exact ⟨_, rfl, h⟩
  | endless hJ => exact hJ.elim

end Yields

/-! ### Passes -/

namespace Settled

@[simp] lemma toExcept_done (value : α) : (done value).toExcept = .ok value := rfl

@[simp] lemma toExcept_stop (value : α) (fault : Fault) :
    (stop value fault).toExcept = .error fault := rfl

@[simp] lemma toExcept_say (value : α) (trace : List TraceLine) :
    (say value trace).toExcept = .ok value := rfl

@[simp] lemma toExcept_map (f : α → β) (s : Settled α) : (s.map f).toExcept = f <$> s.toExcept := by
  cases h : s.fault? <;> simp [toExcept, map, h]

@[simp] lemma toExcept_andThen (s : Settled α) (left : α → β) (next : α → Settled β) :
    (s.andThen left next).toExcept = s.toExcept >>= fun value => (next value).toExcept := by
  cases h : s.fault? <;> simp [toExcept, andThen, h]

@[simp] lemma toExcept_orStop (computed : Except Fault α) (left : β) (next : α → Settled β) :
    (orStop computed left next).toExcept = computed >>= fun value => (next value).toExcept := by
  cases computed <;> rfl

end Settled

end JsxControl
