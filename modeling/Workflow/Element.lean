/-!
# Elements: values of finitely many named types

The values that flow through a workflow are *elements*. Their types are named by codes `t : ι`, and
`El t` is the type that the code `t` names. Two codes can be compared, which two types cannot; this
is what lets a value survive a cancellation when its type happens to be the one that is asked for.

`carry u` is `u` itself between equal codes (`carry_self`) and the default of the wanted type
between different ones (`carry_of_ne`).
-/

namespace Workflow

variable {ι : Type} [DecidableEq ι] {El : ι → Type}

/-- `u` as an element of type `t`: `u` itself if it has that type, else the default of `t`.
mirrors effect/cancellable:147-154 (`carry`) -/
def carry {s t : ι} [Inhabited (El t)] (u : El s) : El t :=
  if h : s = t then h ▸ u else default

@[simp] theorem carry_self {t : ι} [Inhabited (El t)] (u : El t) : (carry u : El t) = u := by
  simp [carry]

theorem carry_of_ne {s t : ι} [Inhabited (El t)] (h : s ≠ t) (u : El s) :
    (carry u : El t) = default := by
  simp [carry, h]

end Workflow
