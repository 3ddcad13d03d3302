import Workflow.Builder

/-!
# Blocks: steps that share an environment

A block is a list of steps that is read from top to bottom: bind the values of a computation, define
names, yield a value, and at the end a result or a computation. The steps share an environment
`Env`, which every bind and every definition extends for the steps after it.

`build` evaluates the first step at once. What follows a bind belongs to the bind's continuation; a
yield evaluates its value, then builds what follows it, and puts the one in front of the other.
-/

namespace Workflow

variable {m : Type → Type} [Monad m] {ι : Type} {El : ι → Type}

/-- Steps that end in a computation of an element of type `t`.
mirrors the forms of a step in builder/cx_macro:114-185 -/
inductive Block (b : Builder m El) (Env : Type) (t : ι) where
  /-- For every value of `comp`, goes on in the environment that the value extends. -/
  | bind {s : ι} (comp : Env → m (b.Comp s)) (extend : El s → Env → Env) (rest : Block b Env t)
  /-- Goes on in a larger environment. -/
  | define (extend : Env → m Env) (rest : Block b Env t)
  /-- Records a value in front of what follows. -/
  | yield (merges : b.Merges) (value : Env → m (El t)) (rest : Block b Env t)
  /-- Ends with a plain value. -/
  | result (value : Env → m (El t))
  /-- Ends with a computation. -/
  | finish (comp : Env → m (b.Comp t))

namespace Block

variable {b : Builder m El} {Env : Type} {t : ι}

/-- The computation that the block describes in an environment.
mirrors builder/cx_macro:119-184, what each form expands to -/
def build : Block b Env t → Env → m (b.Comp t)
  | bind comp extend rest, env => do
    b.bind (← comp env) fun u => rest.build (extend u env)
  | define extend rest, env => do rest.build (← extend env)
  | yield merges value rest, env => do
    let recorded ← value env
    return b.prepend merges recorded (← rest.build env)
  | result value, env => b.pure <$> value env
  | finish comp, env => comp env

end Block

end Workflow
