import Workflow.Proofs.Nesting.Recorded
import Workflow.Script.Session
import Workflow.Sequence

/-!
# A sequencer and the block somebody would have written

Whoever does not record steps can write them down: bind `x` to the start, for every step bind `x` to
what its continuation answers or yield what its projection answers, and return `finish` of `x`. Each
bind hides the `x` before it. `build_eq_writtenOut` says that nobody can tell the two apart,
whatever is done with the computation afterwards, but for one notice: a sequencer that is built says
so, with the number of its steps, before it does anything else.

This holds of every builder and in every lawful host. A host is free to write down each call, each
look at a signal and each notice, and to stop at a panic; so these agree, in number and in order.
-/

namespace Workflow

variable {m : Type → Type} {ι : Type} {El : ι → Type} {b : Builder m El} {t : ι} {Env : Type}

namespace Slot

/-- The innermost of the values that a name stands for, or the default if it stands for none. -/
def innermost {α : Type} [Inhabited α] (x : String) : Slot (List (String × α)) α where
  get env := (env.lookup x).getD default
  set a env := (x, a) :: env
  get_set a env := by simp

end Slot

namespace Sequencer

/-- Recording steps one after the other. -/
theorem steps_record (steps : List (Step b t)) (q : Sequencer b t) :
    (steps.foldl push q).steps = q.steps ++ steps := by
  induction steps generalizing q with
  | nil => simp
  | cons step steps ih =>
    rw [List.foldl_cons, ih]
    simp [push]

theorem length_record (steps : List (Step b t)) :
    (steps.foldl push (empty : Sequencer b t)).length = steps.length := by
  rw [length, steps_record]
  simp [empty]

/-- Recording bind steps one after the other. -/
def ofBinds (ks : List (El t → m (b.Comp t))) : Sequencer b t := (ks.map Step.bind).foldl push empty

@[simp] theorem steps_ofBinds (ks : List (El t → m (b.Comp t))) :
    (ofBinds ks : Sequencer b t).steps = ks.map Step.bind := by
  rw [ofBinds, steps_record]
  rfl

@[simp] theorem length_ofBinds (ks : List (El t → m (b.Comp t))) :
    (ofBinds ks : Sequencer b t).length = ks.length := by
  rw [length, steps_ofBinds, List.length_map]

end Sequencer

variable [Monad m]

theorem Sequencer.build_ofBinds [Reports m] (ks : List (El t → m (b.Comp t))) (start : b.Comp t)
    (finish : El t → m (El t)) :
    (ofBinds ks).build start finish = (do
      report (.building b.name ks.length)
      b.bind start ((ofBinds ks).continuation finish)) := by
  rw [build, length_ofBinds]

/-- The block that binds `x` to a start, takes the steps in order, and returns `finish` of `x`. -/
def Block.ofSteps (x : Slot Env (El t)) (start : b.Comp t) (steps : List (Step b t))
    (finish : El t → m (El t)) : Block b Env t :=
  .bind (fun _ => return start) x.set
    (steps.foldr (Step.writtenOut x) (.result fun env => finish (x.get env)))

theorem Block.build_ofSteps [LawfulMonad m] (x : Slot Env (El t)) (start : b.Comp t)
    (steps : List (Step b t)) (finish : El t → m (El t)) (env : Env) :
    (ofSteps x start steps finish).build env =
      b.bind start (steps.foldr Step.before fun v => b.pure <$> finish v) := by
  have hsteps (v : El t) :
      (steps.foldr (Step.writtenOut x) (.result fun env => finish (x.get env))).build
        (x.set v env) = steps.foldr Step.before (fun v => b.pure <$> finish v) v := by
    rw [Step.build_steps x steps (fun v => b.pure <$> finish v) (fun _ => rfl), x.get_set]
  simp only [ofSteps, Block.build, pure_bind, hsteps]

/-- **A sequencer does what its steps do when they are written out.** Steps are recorded one by one,
and then built between a start and a finish; whatever is done with the result (a run from a state, a
run under a signal, many runs, or nothing but a look at it), all of it is one notice with the number
of steps, and then what comes of the block that is written by hand. -/
theorem Sequencer.build_eq_writtenOut [LawfulMonad m] [Reports m] (x : Slot Env (El t))
    (start : b.Comp t) (steps : List (Step b t)) (finish : El t → m (El t)) (env : Env) {β : Type}
    (use : b.Comp t → m β) :
    ((steps.foldl push empty).build start finish >>= use) = (do
      report (.building b.name steps.length)
      let c ← (Block.ofSteps x start steps finish).build env
      use c) := by
  have hsteps : (steps.foldl push (empty : Sequencer b t)).steps = steps := by
    rw [steps_record]
    rfl
  rw [build, length_record, continuation, hsteps, Block.build_ofSteps, bind_assoc]

section
open Script

/-- Records every value before it goes on with the two values after it. -/
def fanOut : List (Step (Builder.sequence Act Script.El) .int) :=
  [.yield (Builder.sequence_merges Act Script.El) fun u => return u,
   .bind fun u => do
     let _ ← Act.tick "calls"
     return (⟨[u + 10, u + 20]⟩ : Sequence Int64)]

/-- The values with which it starts. -/
def oneTwo : (Builder.sequence Act Script.El).Comp .int := (⟨[1, 2]⟩ : Sequence Int64)

theorem fanOut_writtenOut : ∃ w,
    ((fanOut.foldl Sequencer.push .empty).build oneTwo (fun u => return u + 1) >>=
        fun s => return Sequence.elements s) Session.fresh = .ok [1, 12, 22, 2, 13, 23] w ∧
      w.journal = #[.notice (.building "SequenceBuilder" 2)] ∧
      w.counters.find? "calls" = some 2 := by
  have hwritten := Sequencer.build_eq_writtenOut (Slot.innermost "x") oneTwo fanOut
    (fun u => return u + 1) [("x", 0)] (fun s => return Sequence.elements s)
  exact ⟨_, (congrFun hwritten Session.fresh).trans rfl, rfl, rfl⟩

end

end Workflow
