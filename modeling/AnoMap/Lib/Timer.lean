import Mathlib.Init

/-!
# One-shot timers

A timer has at most one wait outstanding, which carries what its handler captured. Arming it
again or cancelling it aborts the wait: its handler then runs with an error and does nothing, so it
is dropped. A wait that expires hands its handler to the queue of ready ones, which no later call
takes back.
-/

set_option autoImplicit false

/-- A timer whose handlers capture an `α`. -/
structure Timer (α : Type) where
  waiting : Option α
  fired : List α
  deriving DecidableEq, Repr

namespace Timer

variable {α : Type}

/-- No wait outstanding, no handler ready. -/
def idle : Timer α := ⟨none, []⟩

/-- Abort the outstanding wait and start a new one. -/
def rearm (t : Timer α) (a : α) : Timer α := { t with waiting := some a }

/-- Abort the outstanding wait. -/
def cancel (t : Timer α) : Timer α := { t with waiting := none }

/-- The outstanding wait expires. -/
def expire (t : Timer α) : Timer α :=
  match t.waiting with
  | none => t
  | some a => ⟨none, t.fired ++ [a]⟩

/-- The first ready handler is run. -/
def pop (t : Timer α) : Timer α := { t with fired := t.fired.tail }

end Timer
