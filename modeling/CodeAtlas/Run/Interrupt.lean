import CodeAtlas.Failure

/-! # Interrupts

The first interrupt of a run cancels its batch; the results so far are kept. A further one aborts
the run.
-/

namespace CodeAtlas.Run

/-- What an interrupt does, according to whether the batch is cancelled already. -/
def interrupt (cancelled : Bool) : Result Bool :=
  if cancelled then .error .interrupted else .ok true

/-- Interrupts in a row: whether the batch is cancelled then, and the failure that ends the run if
there is one. -/
def interruptTimes : (count : Nat) → (cancelled : Bool) → Bool × Option Failure
  | 0, cancelled => (cancelled, none)
  | count + 1, cancelled =>
    match interrupt cancelled with
    | .ok cancelled => interruptTimes count cancelled
    | .error why => (cancelled, some why)

/-- Interrupts that arrive in a row when a number of results were taken. -/
structure Interrupts where
  after : Nat
  count : Nat
  deriving DecidableEq, Repr

def Interrupts.none : Interrupts := ⟨0, 0⟩

end CodeAtlas.Run
