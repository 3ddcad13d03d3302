import Workflow.Builder
import Workflow.Text.Inspect

/-!
# Sequencers: steps recorded one by one

A sequencer collects steps over one element type and later turns them, together with a start and a
finish, into one computation. Nothing recorded is called before that. `build` folds the steps from
the last to the first: what follows a step is the continuation that the step is given, and what
follows the last is `finish`.
-/

namespace Workflow

variable {m : Type → Type} [Monad m] {ι : Type} {El : ι → Type}

/-- A recorded step.
mirrors builder/sequencer:43-53 (`Step`) -/
inductive Step (b : Builder m El) (t : ι) where
  /-- Goes on with every value of the computation that `k` answers. -/
  | bind (k : El t → m (b.Comp t))
  /-- Records a value in front of what follows, which sees the old value. -/
  | yield (merges : b.Merges) (projection : El t → m (El t))

/-- Steps in the order in which they were recorded.
mirrors builder/sequencer:80-83 (`Sequencer`) -/
structure Sequencer (b : Builder m El) (t : ι) where
  steps : List (Step b t)

namespace Step

variable {b : Builder m El} {t : ι}

/-- The step's name for inspection.
mirrors builder/sequencer:67-74 -/
def inspect : Step b t → String
  | bind _ => "Bind"
  | yield .. => "Yield"

/-- The step's sort. -/
def kind : Step b t → String
  | bind _ => "bind"
  | yield .. => "yield"

/-- The step on its own: what a bind's continuation answers, or the recorded value in front of the
old one. -/
def apply : Step b t → El t → m (b.Comp t)
  | bind k, v => k v
  | yield merges projection, v => return b.prepend merges (← projection v) (b.pure v)

/-- The step with `next` behind it.
mirrors one turn of the loop in builder/sequencer:158-171 -/
def before : Step b t → (El t → m (b.Comp t)) → El t → m (b.Comp t)
  | bind k, next => fun v => do b.bind (← k v) next
  | yield merges projection, next => fun v => do
    let recorded ← projection v
    return b.prepend merges recorded (← next v)

end Step

namespace Sequencer

variable {b : Builder m El} {t : ι}

/-- No steps yet. -/
def empty : Sequencer b t := ⟨[]⟩

def length (q : Sequencer b t) : Nat := q.steps.length

def isEmpty (q : Sequencer b t) : Bool := q.steps.isEmpty

/-- Records one more step.
mirrors builder/sequencer:97-117 (`then`, `yield_with`) -/
def push (q : Sequencer b t) (step : Step b t) : Sequencer b t := ⟨q.steps ++ [step]⟩

/-- The steps of `q`, then those of `r`. -/
def append (q r : Sequencer b t) : Sequencer b t := ⟨q.steps ++ r.steps⟩

/-- The sequencer for inspection.
mirrors builder/sequencer:186-194 -/
def inspect (q : Sequencer b t) : String :=
  Text.record "Sequencer"
    [("builder", Text.quoted b.name), ("steps", Text.listed (q.steps.map Step.inspect))]

/-- What happens to a value of the start: every step in order, then `finish`.
mirrors the loop in builder/sequencer:153-171 -/
def continuation (q : Sequencer b t) (finish : El t → m (El t)) : El t → m (b.Comp t) :=
  q.steps.foldr Step.before fun v => b.pure <$> finish v

/-- The computation that the steps describe between `start` and `finish`.
mirrors builder/sequencer:147-174 (`build`) -/
def build [Reports m] (q : Sequencer b t) (start : b.Comp t) (finish : El t → m (El t)) :
    m (b.Comp t) := do
  report (.building b.name q.length)
  b.bind start (q.continuation finish)

end Sequencer

end Workflow
