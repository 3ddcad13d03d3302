/-!
# Cancellation signals

A signal is something a running task may ask, again and again, whether it should stop. Asking is an
effect of the host: the answer may depend on what has happened so far, and asking may itself change
things.
-/

namespace Workflow

/-- Something that can be asked whether cancellation was requested.
mirrors effect/cancellation:27-30 (`CancellationSignal`) -/
structure Signal (m : Type → Type) where
  poll : m Bool

namespace Signal

variable {m : Type → Type} [Monad m]

/-- The same answer every time.
mirrors effect/cancellation:32-36 -/
def constant (b : Bool) : Signal m := ⟨return b⟩

/-- The signal that never requests anything.
mirrors effect/cancellation:64-70 (`NeverCancelled`) -/
def never : Signal m := constant false

/-- The same signal; every answer is told to `observe` as it is given. -/
def watched (signal : Signal m) (observe : Bool → m Unit) : Signal m :=
  ⟨do
    let answer ← signal.poll
    observe answer
    return answer⟩

end Signal

end Workflow
