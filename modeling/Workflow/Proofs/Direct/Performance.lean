import Workflow.Block
import Workflow.Optional
import Workflow.State

/-!
# Direct style

A bind hands the rest of the work over as a continuation. In direct style one simply goes on: the
computation is performed, its element is there, and the next line is executed. What "going on" means
is up to a monad `n` above the host: it may leave early, or thread a state.

A `Performance` of a builder in `n` says how a computation is performed there, subject to two laws:
a plain value is performed by doing nothing, and a bind by performing the computation, calling the
continuation, and performing what it answers. Optional values are performed in `OptionT`, where
nothing leaves (`Performance.optional`), and state transformers in `StateT` (`Performance.state`).

`Block.direct` executes the steps of a block in order in an environment that grows, and
`performed_build` says that this is what comes of building the block and performing what was built.
-/

namespace Workflow

variable {m n : Type → Type} {ι : Type} {El : ι → Type} {b : Builder m El} {s t : ι}

/-- How the computations of `b` are performed in `n`. -/
structure Performance (b : Builder m El) (n : Type → Type) [Monad n] [MonadLiftT m n] where
  perform {t : ι} : b.Comp t → n (El t)
  perform_pure {t : ι} (u : El t) : perform (b.pure u) = pure u
  perform_bind {s t : ι} (c : b.Comp s) (k : El s → m (b.Comp t)) :
    ((liftM (b.bind c k) : n (b.Comp t)) >>= perform) =
      perform c >>= fun u => (liftM (k u) : n (b.Comp t)) >>= perform

namespace Performance

variable [Monad n] [MonadLiftT m n] (p : Performance b n)

/-- Makes a computation and performs it once. -/
def performed (x : m (b.Comp t)) : n (El t) := (liftM x : n (b.Comp t)) >>= p.perform

theorem performed_bind (c : b.Comp s) (k : El s → m (b.Comp t)) :
    p.performed (b.bind c k) = p.perform c >>= fun u => p.performed (k u) :=
  p.perform_bind c k

variable [Monad m] [LawfulMonad n] [LawfulMonadLiftT m n]

theorem performed_pure (c : b.Comp t) : p.performed (pure c) = p.perform c := by
  rw [performed, liftM_pure, pure_bind]

/-- What is done before the computation is there is done first. -/
theorem performed_after {α : Type} (x : m α) (f : α → m (b.Comp t)) :
    p.performed (x >>= f) = (liftM x : n α) >>= fun a => p.performed (f a) := by
  simp only [performed, liftM_bind, bind_assoc]

/-- A bind of a computation that is yet to be made. -/
theorem performed_after_bind (x : m (b.Comp s)) (k : El s → m (b.Comp t)) :
    p.performed (x >>= fun c => b.bind c k) = p.performed x >>= fun u => p.performed (k u) := by
  rw [performed_after, performed, bind_assoc]
  exact bind_congr fun c => p.performed_bind c k

theorem performed_map_pure [LawfulMonad m] (x : m (El t)) :
    p.performed (b.pure <$> x) = (liftM x : n (El t)) := by
  simp only [map_eq_pure_bind, performed_after, performed_pure, p.perform_pure, bind_pure]

end Performance

/-- Executes the steps of a block in order, without a continuation. -/
def Block.direct {Env : Type} [Monad n] [MonadLiftT m n] (p : Performance b n) (hb : ¬ b.Merges) :
    Block b Env t → Env → n (El t)
  | bind comp extend rest, env => do
    let c ← comp env
    let u ← p.perform c
    rest.direct p hb (extend u env)
  | define extend rest, env => do rest.direct p hb (← extend env)
  | yield merges _ _, _ => (hb merges).elim
  | result value, env => value env
  | finish comp, env => do p.perform (← comp env)

/-- Performing what was built of a block is executing its steps in order. -/
theorem Performance.performed_build {Env : Type} [Monad m] [LawfulMonad m] [Monad n]
    [LawfulMonad n] [MonadLiftT m n] [LawfulMonadLiftT m n] (p : Performance b n) (hb : ¬ b.Merges)
    (block : Block b Env t) (env : Env) :
    p.performed (block.build env) = block.direct p hb env := by
  induction block generalizing env with
  | bind comp extend rest ih =>
    rw [Block.build, performed_after, Block.direct]
    refine bind_congr fun c => ?_
    rw [performed_bind]
    exact bind_congr fun u => ih (extend u env)
  | define extend rest ih =>
    rw [Block.build, performed_after, Block.direct]
    exact bind_congr fun env' => ih env'
  | yield merges value rest ih => exact (hb merges).elim
  | result value => exact p.performed_map_pure (value env)
  | finish comp => rfl

/-! ## Optional values -/

section
variable [Monad m] [LawfulMonad m] {α : Type}

/-- Where the host answers an optional value, one goes on with it or leaves. -/
theorem run_liftM_mk (x : m (Option α)) :
    ((liftM x : OptionT m (Option α)) >>= fun o => OptionT.mk (pure o)).run = x := by
  show (OptionT.lift x >>= fun o => OptionT.mk (pure o)).run = x
  simp

/-- An absent value leaves. -/
def Performance.optional : Performance (Builder.optional m El) (OptionT m) where
  perform (o : Option _) := OptionT.mk (pure o)
  perform_pure u := rfl
  perform_bind {s t} (o : Option (El s)) (k : El s → m (Option (El t))) := by
    apply OptionT.ext
    refine (run_liftM_mk _).trans ?_
    cases o with
    | none => simp
    | some u => exact ((congrArg OptionT.run (pure_bind u _)).trans (run_liftM_mk (k u))).symm

theorem Performance.run_optional (x : m (Option (El t))) :
    (optional.performed x : OptionT m (El t)).run = x :=
  run_liftM_mk x

end

/-! ## State transformers -/

section
variable [Monad m] [LawfulMonad m] {S : Type} [∀ t, Inhabited (El t)]

/-- Where the host answers a state transformer, one goes on from the state that it leaves. -/
theorem run_liftM_run {α : Type} (x : m (State m S α)) (s : S) :
    ((liftM x : StateT S m (State m S α)) >>= fun c => c.run).run s = x >>= fun c => c.run s := by
  simp only [StateT.run_bind, StateT.run_monadLift, bind_assoc, pure_bind]
  rfl

/-- A computation takes the state as it is and leaves another one. -/
def Performance.state : Performance (Builder.state m S El) (StateT S m) where
  perform (c : State m S _) := c.run
  perform_pure u := rfl
  perform_bind {s t} (c : State m S (El s)) (k : El s → m (State m S (El t))) := by
    apply StateT.ext
    intro s
    refine (run_liftM_run _ s).trans ((pure_bind (c.flatMap k) _).trans ?_)
    rw [State.run_flatMap, StateT.run_bind]
    exact bind_congr fun p => (run_liftM_run (k p.1) p.2).symm

theorem Performance.run_state (x : m (State m S (El t))) (s : S) :
    (state.performed x : StateT S m (El t)).run s = x >>= fun c => c.run s :=
  run_liftM_run x s

end

end Workflow
