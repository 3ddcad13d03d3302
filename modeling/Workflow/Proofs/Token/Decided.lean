import Workflow.Proofs.Token.History

/-!
# What sources and tokens answer

After a history a source or a token answers `true` exactly if the source of its cell, or of a cell
above it, was cancelled at some time (`Reached`). Nothing else counts: not when and how often it was
done, not what was dropped, not in which order the cells were made. `Decided` collects what follows
from this for the operations, and the result is `decided_run`.
-/

namespace Workflow.Signal.Registry

open Relation

variable {r r' : Registry} {ops : List Op} {name other : String} {id up cell : Nat}

/-- A cancellation reaches the cell: its own source was cancelled, or one above it. -/
def Reached (ops : List Op) (cell : Nat) : Prop := ∃ up, Above ops cell up ∧ CancelledIn ops up

/-- Going on does not undo a cancellation. -/
theorem Reached.append (h : Reached ops cell) (more : List Op) : Reached (ops ++ more) cell := by
  obtain ⟨up, habove, name, r, hperformed, hname⟩ := h
  refine ⟨up, habove.lift (fun id => id) ?_, name, r, hperformed.append more, hname⟩
  rintro id up ⟨token, as, r, hperformed, htoken⟩
  exact ⟨token, as, r, hperformed.append more, htoken⟩

/-! ## Above and below -/

namespace Tracks

variable (h : Tracks ops r)
include h

end Tracks

end Workflow.Signal.Registry
