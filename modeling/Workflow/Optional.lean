import Workflow.Builder

/-!
# Optional values

A computation that may have no value. A bind calls its continuation at once, and only when there is
a value for it: the first absence ends the workflow, and nothing after it is evaluated.
-/

namespace Workflow

variable (m : Type → Type) [Monad m] {ι : Type} (El : ι → Type)

/-- The builder of optional values. It cannot merge.
mirrors effect/option:56-80 (`OptionBuilder`) -/
def Builder.optional : Builder m El where
  name := "OptionBuilder"
  Comp t := Option (El t)
  bind
    | none, _ => return none
    | some u, k => k u
  pure := some
  zero := none
  merge? := none

variable {m El} {s t : ι}

@[simp] theorem Builder.optional_bind_none (k : El s → m (Option (El t))) :
    (Builder.optional m El).bind (none : Option (El s)) k = return none := rfl

@[simp] theorem Builder.optional_bind_some (u : El s) (k : El s → m (Option (El t))) :
    (Builder.optional m El).bind (some u) k = k u := rfl

end Workflow
