import Workflow.Element
import Workflow.Notice

/-!
# Builders: how computations of one kind are sequenced

A `Builder` packages a kind of computation `Comp t` over elements: how to `bind` a continuation to
one, how to wrap a plain value (`pure`), a neutral computation (`zero`), and, for builders that can
put two computations side by side, how to `merge` them.

Everything else is derived: `map`, `andThen` and `run` for every builder, `prepend` for one that
merges, and `combine`, which merges if the builder can and refuses if it cannot. A continuation is
user code, so it runs in the host monad `m`; whether `bind` calls it at once or stores it for later
is the builder's choice.
-/

namespace Workflow

/-- A kind of computation over the elements `El`, hosted in `m`.
mirrors builder/mod:84-105 (`ExpressionBuilder`) and, for `merge?`, 182-184 (`CombineBuilder`) -/
structure Builder (m : Type → Type) {ι : Type} (El : ι → Type) where
  /-- The name by which the builder reports. -/
  name : String
  /-- Computations of an element of type `t`. -/
  Comp : ι → Type
  bind {s t : ι} : Comp s → (El s → m (Comp t)) → m (Comp t)
  pure {t : ι} : El t → Comp t
  zero {t : ι} : Comp t
  /-- Puts two computations side by side, if this kind can. -/
  merge? : Option (∀ {t : ι}, Comp t → Comp t → Comp t)

namespace Builder

variable {m : Type → Type} [Monad m] {ι : Type} {El : ι → Type} (b : Builder m El) {s t : ι}

/-- Whether `b` can put two computations side by side. -/
def Merges : Prop := b.merge?.isSome = true

/-- Puts two computations side by side. -/
def merge (h : b.Merges) (first second : b.Comp t) : b.Comp t := b.merge?.get h first second

/-- A value in front of a computation.
mirrors builder/mod:187-189 (`yield_value`) -/
def prepend (h : b.Merges) (v : El t) (rest : b.Comp t) : b.Comp t := b.merge h (b.pure v) rest

/-- The answer to an operation that `b` lacks. -/
def refusal (operation : String) : Refusal := ⟨b.name, operation⟩

/-- Puts two computations side by side. A builder that cannot do so reports its refusal and returns
it, and neither computation is touched.
mirrors builder/mod:115-127 and effect/sequence:210-216 (`combine`) -/
def combine [Reports m] (first second : b.Comp t) : m (Except Refusal (b.Comp t)) :=
  match b.merge? with
  | some merge => return .ok (merge first second)
  | none => do
    report (.refused (b.refusal "combine"))
    return .error (b.refusal "combine")

/-- Applies `f` to the element that `c` computes.
mirrors builder/mod:155-163 (`map`) -/
def map (c : b.Comp s) (f : El s → m (El t)) : m (b.Comp t) :=
  b.bind c fun u => b.pure <$> f u

/-- `second` after `first`, whose element is dropped.
mirrors builder/mod:166-173 (`then`) -/
def andThen (first : b.Comp s) (second : b.Comp t) : m (b.Comp t) :=
  b.bind first fun _ => return second

/-- Hands the builder to a body that makes a computation with it.
mirrors builder/mod:146-152 (`run`) -/
def run {α : Type} (body : Builder m El → α) : α := body b

end Builder

end Workflow
