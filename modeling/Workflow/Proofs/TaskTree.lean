import Workflow.Proofs.Chronicle
import Workflow.Sequencer

/-!
# Task trees: how a task is put together

A `TaskTree` is a task as a program writes it down: values, thunks and own functions at the leaves,
and above them binds, maps, sequences of two and sequencers, to any depth. A closure does its work
in the world and hands over what it found out; the tree that goes on from there may depend on that.
Every closure has a number, by which a record names it.

`build` makes the task with the operations of the library. It does so in any host, given a `Setting`
that says how user code, own functions and bound tasks stand in that host: `plain` for the host of
user code itself, `chronicled` for the host that keeps a record. The two settings agree on all that
happens in the world (`build_shadows`).
-/

namespace Workflow

/-- How user code stands in a host. -/
structure Setting (ε W : Type) (m : Type → Type) where
  /-- A call of a closure. -/
  call {α : Type} (closure : Nat) (act : EStateM ε W α) : m α
  /-- A task with a function of its own. -/
  leaf {α : Type} (closure : Nat) (f : Signal (EStateM ε W) → EStateM ε W (Ending α)) :
    Cancellable m α
  /-- A task as its bind runs it. -/
  bound {α : Type} (c : Cancellable m α) : Cancellable m α

namespace Setting

/-- User code as it is. -/
def plain {ε W : Type} : Setting ε W (EStateM ε W) := ⟨fun _ act => act, fun _ f => ⟨f⟩, fun c => c⟩

/-- User code with a record of it. -/
def chronicled {ε W : Type} : Setting ε W (Chronicled ε W) := ⟨.calling, .leaf, .bound⟩

end Setting

/-- A task as it is written down. -/
inductive TaskTree (ε W : Type) {ι : Type} (El : ι → Type) : ι → Type 1 where
  | pure {t : ι} (u : El t) : TaskTree ε W El t
  | zero {t : ι} : TaskTree ε W El t
  /-- Work that is done whenever the task is run. -/
  | delay {t : ι} (closure : Nat) (work : EStateM ε W (El t)) : TaskTree ε W El t
  /-- A function of the signal, which also says whether it was cut short. -/
  | own {t : ι} (closure : Nat) (f : Signal (EStateM ε W) → EStateM ε W (Ending (El t))) :
    TaskTree ε W El t
  /-- The continuation is `k`, and then the choice of the tree that goes on. -/
  | bind {s t : ι} {κ : Type} (c : TaskTree ε W El s) (closure : Nat) (k : El s → EStateM ε W κ)
      (next : κ → TaskTree ε W El t) : TaskTree ε W El t
  | map {s t : ι} (c : TaskTree ε W El s) (closure : Nat) (f : El s → EStateM ε W (El t)) :
    TaskTree ε W El t
  | andThen {s t : ι} (first : TaskTree ε W El s) (second : TaskTree ε W El t) : TaskTree ε W El t
  /-- A sequencer: numbered continuations over one element type, between a start and a finish. -/
  | sequencer {t : ι} {κ : Type} (steps : List (Nat × (El t → EStateM ε W κ)))
      (next : κ → TaskTree ε W El t) (start : TaskTree ε W El t) (closure : Nat)
      (finish : El t → EStateM ε W (El t)) : TaskTree ε W El t

namespace TaskTree

variable {ε W : Type} {ι : Type} [DecidableEq ι] {El : ι → Type} [∀ t, Inhabited (El t)] {t : ι}

section
variable {m : Type → Type} [Monad m] [Reports m] (S : Setting ε W m)

/-- A recorded step of a sequencer: its closure is called, and what it chose is built. -/
def record {κ : Type} (build : κ → m (Cancellable m (El t)))
    (step : Nat × (El t → EStateM ε W κ)) : Step (Builder.cancellable m El) t :=
  .bind fun u => do return S.bound (← build (← S.call step.1 (step.2 u)))

/-- Building a sequencer of tasks is a notice and one bind. -/
theorem build_recorded {κ : Type} (build : κ → m (Cancellable m (El t)))
    (steps : List (Nat × (El t → EStateM ε W κ))) (c : Cancellable m (El t))
    (finish : El t → m (El t)) :
    (⟨steps.map (record S build)⟩ : Sequencer (Builder.cancellable m El) t).build c finish = (do
      report (.building (Builder.cancellable m El).name steps.length)
      return c.flatMap ((⟨steps.map (record S build)⟩ :
        Sequencer (Builder.cancellable m El) t).continuation finish)) := by
  simp only [Sequencer.build, Sequencer.length, List.length_map]
  rfl

/-- Makes the task. -/
def build : {t : ι} → TaskTree ε W El t → m (Cancellable m (El t))
  | _, pure u => return (Builder.cancellable m El).pure u
  | _, zero => return (Builder.cancellable m El).zero
  | _, delay closure work => return .delay (S.call closure work)
  | _, own closure f => return S.leaf closure f
  | _, bind c closure k next => do
    (Builder.cancellable m El).bind (S.bound (← c.build)) fun u => do
      (next (← S.call closure (k u))).build
  | _, map c closure f => do
    (Builder.cancellable m El).map (S.bound (← c.build)) fun u => S.call closure (f u)
  | _, andThen first second => do
    let c ← first.build
    (Builder.cancellable m El).andThen (S.bound c) (← second.build)
  | t, sequencer steps next start closure finish => do
    let recorded : Sequencer (Builder.cancellable m El) t :=
      ⟨steps.map (record S fun x => (next x).build)⟩
    recorded.build (S.bound (← start.build)) fun u => S.call closure (finish u)

end

/-! ## The two settings -/

section
variable [Reports (EStateM ε W)]

theorem continuation_shadows {κ : Type}
    {next : κ → Chronicled ε W (Cancellable (Chronicled ε W) (El t))}
    {next' : κ → EStateM ε W (Cancellable (EStateM ε W) (El t))}
    (hnext : ∀ x, Shadows Cancellable.Twins (next x) (next' x)) (closure : Nat)
    (finish : El t → EStateM ε W (El t)) (steps : List (Nat × (El t → EStateM ε W κ))) (u : El t) :
    Shadows Cancellable.Twins
      ((⟨steps.map (record .chronicled next)⟩ : Sequencer (Builder.cancellable _ El) t).continuation
        (fun u => Setting.chronicled.call closure (finish u)) u)
      ((⟨steps.map (record .plain next')⟩ : Sequencer (Builder.cancellable _ El) t).continuation
        (fun u => Setting.plain.call closure (finish u)) u) := by
  induction steps generalizing u with
  | nil =>
    exact (Shadows.calling closure (finish u)).map_same fun v => .ofValue v
  | cons step steps ih =>
    refine Shadows.bind (R := Cancellable.Twins) ?_ fun c d hcd => .pure (hcd.flatMap ih)
    refine (Shadows.calling step.1 (step.2 u)).bind_same fun x => ?_
    exact (hnext x).map fun c d hcd => hcd.bound

/-- What is built is the same task, seen from the two hosts. -/
theorem build_shadows (tree : TaskTree ε W El t) :
    Shadows Cancellable.Twins (tree.build .chronicled) (tree.build .plain) := by
  induction tree with
  | pure u => exact .pure (.ofValue u)
  | zero => exact .pure (.ofValue default)
  | delay closure work => exact .pure (.delay closure work)
  | own closure f => exact .pure (.leaf closure f)
  | bind c closure k next ihc ihnext =>
    refine ihc.bind fun c d hcd => .pure (hcd.bound.flatMap fun u => ?_)
    exact (Shadows.calling closure (k u)).bind_same ihnext
  | map c closure f ihc =>
    refine ihc.bind fun c d hcd => .pure (hcd.bound.flatMap fun u => ?_)
    exact (Shadows.calling closure (f u)).map_same fun v => .ofValue v
  | andThen first second ih₁ ih₂ =>
    refine ih₁.bind fun c d hcd => ih₂.bind fun c' d' hcd' => .pure (hcd.bound.flatMap fun _ => ?_)
    exact .pure hcd'
  | sequencer steps next start closure finish ihnext ihstart =>
    refine ihstart.bind fun c d hcd => ?_
    rw [build_recorded, build_recorded]
    refine (Shadows.report _).bind fun _ _ _ => .pure ?_
    exact hcd.bound.flatMap (continuation_shadows ihnext closure finish steps)

end

end TaskTree

end Workflow
