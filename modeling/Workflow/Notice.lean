/-!
# Notices: what the library reports about itself

Workflows run inside a host monad. Besides the effects of the user's own code the library makes
exactly three kinds of remark of its own, the *notices*: an operation was refused, a checkpoint
observed a cancellation, a sequencer is being built. A host that listens has an instance of
`Reports`; the identity host does not listen.
-/

namespace Workflow

/-- An operation that a builder does not offer.
mirrors builder/error:21-28 (`UnsupportedOperation`) -/
structure Refusal where
  builder : String
  operation : String
  deriving DecidableEq, Repr

namespace Refusal

/-- The sentence for people. -/
def message (r : Refusal) : String :=
  r.operation ++ " is not supported by " ++ r.builder

end Refusal

/-- Where a bind of cancellable tasks found out that it is cancelled.
mirrors effect/cancellable:120-140, where each is reported -/
inductive Checkpoint where
  /-- Before the bound task was started. -/
  | beforeBind
  /-- The bound task itself came back cancelled. -/
  | inner
  /-- After the bound task, before its continuation was called. -/
  | beforeContinuation
  /-- After the continuation was called, before the task it answered was started. -/
  | beforeNext
  deriving DecidableEq, Repr

/-- A remark of the library.
mirrors builder/mod:121-125, effect/cancellable:120-140 and builder/sequencer:151 -/
inductive Notice where
  | refused (r : Refusal)
  | observed (c : Checkpoint)
  | building (builder : String) (steps : Nat)
  deriving DecidableEq, Repr

/-- The checkpoint's name in a journal. -/
def Checkpoint.name : Checkpoint → String
  | beforeBind => "before_bind"
  | inner => "inner"
  | beforeContinuation => "before_continuation"
  | beforeNext => "before_next"

/-- The line that a notice leaves in a journal: its level, what happened, and the particulars. -/
def Notice.line : Notice → String
  | refused r =>
    "DEBUG refusing unsupported operation: builder=" ++ r.builder ++ " operation=" ++ r.operation
  | observed c => "TRACE cancellation observed: checkpoint=" ++ c.name
  | building b n => "TRACE building sequencer: builder=" ++ b ++ " steps=" ++ toString n

/-- A host monad that takes note of what the library reports. -/
class Reports (m : Type → Type) where
  report : Notice → m Unit

export Reports (report)

instance : Reports Id := ⟨fun _ => ()⟩

end Workflow
