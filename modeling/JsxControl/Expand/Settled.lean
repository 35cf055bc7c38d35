import JsxControl.Fault
import JsxControl.Trace.Topic

/-!
# Results that stop half-way

A pass over a tree that meets a fault leaves the tree as far as it has come. A `Settled` value is
what is there at the end, complete or not, with what was traced on the way and the fault that
stopped the pass, if one did.
-/

namespace JsxControl

/-- A value as a pass has left it. -/
structure Settled (α : Type) where
  value : α
  trace : List TraceLine := []
  fault? : Option Fault := none

namespace Settled

variable {α β : Type}

/-- A value that needs nothing done. -/
def done (value : α) : Settled α := { value }

/-- A value at which a pass stops. -/
def stop (value : α) (fault : Fault) : Settled α := { value, fault? := some fault }

/-- A value about which something is traced. -/
def say (value : α) (trace : List TraceLine) : Settled α := { value, trace }

/-- Carries on with a value that is complete. One that is not stays as it is, in the whole that
`left` puts it into. -/
def andThen (s : Settled α) (left : α → β) (next : α → Settled β) : Settled β :=
  match s.fault? with
  | some fault => { value := left s.value, trace := s.trace, fault? := some fault }
  | none =>
    let rest := next s.value
    { rest with trace := s.trace ++ rest.trace }

/-- The same result in a larger whole. -/
def map (f : α → β) (s : Settled α) : Settled β := { s with value := f s.value }

/-- Carries on with what a computation gives; if it fails, the pass stops at `left`. -/
def orStop (computed : Except Fault α) (left : β) (next : α → Settled β) : Settled β :=
  match computed with
  | .ok value => next value
  | .error fault => stop left fault

/-- A complete value, or the fault. -/
def toExcept (s : Settled α) : Except Fault α :=
  match s.fault? with
  | some fault => .error fault
  | none => .ok s.value

@[simp] theorem andThen_done (value : α) (left : α → β) (next : α → Settled β) :
    (done value).andThen left next = next value := by
  simp [andThen, done]

@[simp] theorem map_done (f : α → β) (value : α) : (done value).map f = done (f value) := rfl

@[simp] theorem orStop_ok (value : α) (left : β) (next : α → Settled β) :
    orStop (.ok value) left next = next value := rfl

end Settled

end JsxControl
