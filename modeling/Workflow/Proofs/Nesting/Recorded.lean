import Workflow.Block
import Workflow.Sequencer

/-!
# Sequencers are blocks

A sequencer hands one value from step to step. Written out as a block, its steps keep that value in
a `Slot` of the environment: every bind sets the slot anew, and every closure reads it.
`build_steps` carries the correspondence through the fold, for whatever comes behind the steps.

The smallest environment is the value itself. `build_eq_asBlock`: apart from its own notice,
building a sequencer is building that block.
-/

namespace Workflow

variable {m : Type → Type} {ι : Type} {El : ι → Type} {b : Builder m El} {t : ι} {Env : Type}

/-- A place for one value in an environment. -/
structure Slot (Env α : Type) where
  get : Env → α
  set : α → Env → Env
  get_set (a : α) (env : Env) : get (set a env) = a

/-- The environment that is nothing but the value. -/
def Slot.self {α : Type} : Slot α α := ⟨fun a => a, fun a _ => a, fun _ _ => rfl⟩

/-- The step, written in front of a block. -/
def Step.writtenOut (x : Slot Env (El t)) : Step b t → Block b Env t → Block b Env t
  | .bind k, rest => .bind (fun env => k (x.get env)) x.set rest
  | .yield merges projection, rest => .yield merges (fun env => projection (x.get env)) rest

/-- The step in front of a block. -/
def Step.inFront : Step b t → Block b (El t) t → Block b (El t) t
  | .bind k, rest => .bind k (fun u _ => u) rest
  | .yield merges projection, rest => .yield merges projection rest

theorem Step.inFront_eq (step : Step b t) (rest : Block b (El t) t) :
    step.inFront rest = step.writtenOut .self rest := by
  cases step <;> rfl

variable [Monad m]

/-- The steps, between `start` and `finish`, as a block. -/
def Sequencer.asBlock (q : Sequencer b t) (start : b.Comp t) (finish : El t → m (El t)) :
    Block b (El t) t :=
  .bind (fun _ => return start) (fun u _ => u) (q.steps.foldr Step.inFront (.result finish))

/-- What a step does with what follows it, its block does with what is built of the rest. -/
theorem Step.build_writtenOut (x : Slot Env (El t)) (step : Step b t) {rest : Block b Env t}
    {next : El t → m (b.Comp t)} (h : ∀ env, rest.build env = next (x.get env)) (env : Env) :
    (step.writtenOut x rest).build env = step.before next (x.get env) := by
  cases step with
  | bind k =>
    have hrest : (fun u => rest.build (x.set u env)) = next := by
      funext u
      rw [h, x.get_set]
    simp only [writtenOut, Block.build, before, hrest]
  | yield merges projection => simp only [writtenOut, Block.build, before, h]

/-- The fold of the steps, for any continuation behind them and any block that builds it. -/
theorem Step.build_steps (x : Slot Env (El t)) (steps : List (Step b t))
    (next : El t → m (b.Comp t)) {rest : Block b Env t}
    (h : ∀ env, rest.build env = next (x.get env)) (env : Env) :
    (steps.foldr (Step.writtenOut x) rest).build env =
      steps.foldr Step.before next (x.get env) := by
  induction steps generalizing env with
  | nil => exact h env
  | cons step steps ih => exact step.build_writtenOut x ih env

theorem Sequencer.build_eq_asBlock [LawfulMonad m] [Reports m] (q : Sequencer b t)
    (start : b.Comp t) (finish : El t → m (El t)) (u : El t) :
    q.build start finish = (do
      report (.building b.name q.length)
      (q.asBlock start finish).build u) := by
  have hinFront : (Step.inFront : Step b t → Block b (El t) t → Block b (El t) t) =
      Step.writtenOut .self := by
    funext step rest
    exact step.inFront_eq rest
  have hsteps (v : El t) : (q.steps.foldr Step.inFront (.result finish)).build v =
      q.continuation finish v := by
    rw [hinFront]
    exact Step.build_steps .self q.steps (fun v => b.pure <$> finish v) (fun _ => rfl) v
  simp only [build, asBlock, Block.build, pure_bind, hsteps]

end Workflow
