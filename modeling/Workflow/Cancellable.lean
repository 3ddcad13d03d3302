import Workflow.Builder
import Workflow.Signal

/-!
# Cancellable tasks

A task is run under a signal and ends with a value and a flag that says whether it was cut short.
The signal is looked at in one place only, the bind (`flatMap`): before the bound task is started,
before the continuation is called, and before the task that the continuation answered is started.
When a look finds that cancellation was requested, or when the bound task comes back cancelled, the
bind reports the checkpoint and stops there, with the bound task's value if it has one and if it has
the type that is asked for, and with the default otherwise.

`ofValue`, `delay` and hence the builder's `pure` and `zero` never look at the signal.
-/

namespace Workflow

/-- How a task ended: its value, and whether it was cut short.
mirrors effect/cancellable:52, the pair that a run returns -/
structure Ending (α : Type) where
  value : α
  cancelled : Bool
  deriving DecidableEq, Repr

/-- A task that is run under a signal.
mirrors effect/cancellable:55-57 (`Cancellable`) -/
structure Cancellable (m : Type → Type) (α : Type) where
  run : Signal m → m (Ending α)

namespace Cancellable

variable {m : Type → Type} [Monad m] {α : Type}

/-- A finished value.
mirrors effect/cancellable:73-78 (`from_value`) -/
def ofValue (a : α) : Cancellable m α := ⟨fun _ => return ⟨a, false⟩⟩

/-- Work that is done whenever the task is run.
mirrors effect/cancellable:91-96 (`maybe_do`) -/
def delay (work : m α) : Cancellable m α := ⟨fun _ => return ⟨← work, false⟩⟩

/-- Runs the task where nobody can cancel it.
mirrors effect/cancellable:106-108 (`run_uncancelled`) -/
def runUncancelled (c : Cancellable m α) : m (Ending α) := c.run .never

@[simp] theorem run_ofValue (a : α) (signal : Signal m) :
    (ofValue a : Cancellable m α).run signal = return ⟨a, false⟩ := rfl

@[simp] theorem run_delay (work : m α) (signal : Signal m) :
    (delay work).run signal = work >>= fun a => return ⟨a, false⟩ := rfl

variable [Reports m] {ι : Type} [DecidableEq ι] {El : ι → Type} [∀ t, Inhabited (El t)] {s t : ι}

/-- Ends a bind at a checkpoint.
mirrors the four early returns in effect/cancellable:120-140 -/
def stop (at_ : Checkpoint) (value : α) : m (Ending α) := do
  report (.observed at_)
  return ⟨value, true⟩

/-- Runs `c`, calls `k` on its value and runs the task that `k` answers, with a look at the signal
before each of the three.
mirrors effect/cancellable:112-144 (`flat_map`) -/
def flatMap (c : Cancellable m (El s)) (k : El s → m (Cancellable m (El t))) :
    Cancellable m (El t) :=
  ⟨fun signal => do
    if ← signal.poll then
      return ← stop .beforeBind default
    let ending ← c.run signal
    if ending.cancelled then
      return ← stop .inner (carry ending.value)
    if ← signal.poll then
      return ← stop .beforeContinuation (carry ending.value)
    let next ← k ending.value
    if ← signal.poll then
      return ← stop .beforeNext (carry ending.value)
    next.run signal⟩

/-- All that a bind does, with its exits as branches. -/
theorem run_flatMap (c : Cancellable m (El s)) (k : El s → m (Cancellable m (El t)))
    (signal : Signal m) :
    (c.flatMap k).run signal = (do
      if ← signal.poll then stop .beforeBind default
      else
        let ending ← c.run signal
        if ending.cancelled then stop .inner (carry ending.value)
        else
          if ← signal.poll then stop .beforeContinuation (carry ending.value)
          else
            let next ← k ending.value
            if ← signal.poll then stop .beforeNext (carry ending.value)
            else next.run signal) := rfl

end Cancellable

variable (m : Type → Type) [Monad m] [Reports m] {ι : Type} [DecidableEq ι] (El : ι → Type)
  [∀ t, Inhabited (El t)]

/-- The builder of cancellable tasks. It cannot merge.
mirrors effect/cancellable:183-204 (`CancellableBuilder`) -/
def Builder.cancellable : Builder m El where
  name := "CancellableBuilder"
  Comp t := Cancellable m (El t)
  bind c k := return c.flatMap k
  pure := .ofValue
  zero := .ofValue default
  merge? := none

end Workflow
