import Workflow.Proofs.Chronicle.Adds
import Workflow.Proofs.Nesting.Recorded
import Workflow.Script.Session

/-!
# Binds nested to the right

What follows a bind of a block belongs to the bind's continuation, so every bind is made while the
one before it runs. `Block.course` tells how such a block is evaluated and run without any task in
between: an expression is evaluated, and `gate` says what becomes of the run of its computation. At
the start the run is what is built; behind a bind the run starts at once, if one more look at the
signal does not stop it.

The record of a run is told station by station (`Block.path`). A run passes all of them and ends as
the final computation does, or leaves the path at one station, with one notice and the flag set
(`Travels`). The result is `build_eq_course`; a sequencer is a block (`build_eq_asBlock`), and so
it is covered.
-/

namespace Workflow

variable {m : Type → Type} {ι : Type} [DecidableEq ι] {El : ι → Type} [∀ t, Inhabited (El t)]
  {Env : Type} {s t : ι}

theorem Builder.not_merges_cancellable [Monad m] [Reports m] :
    ¬ (Builder.cancellable m El).Merges := by
  simp [Builder.Merges, Builder.cancellable]

namespace Block

/-! ## A block without its tasks -/

/-- The number of binds. -/
def binds {b : Builder m El} : Block b Env t → Nat
  | bind _ _ rest => rest.binds + 1
  | define _ rest | yield _ _ rest => rest.binds
  | result _ | finish _ => 0

section
variable [Monad m] [Reports m]

theorem binds_asBlock (q : Sequencer (Builder.cancellable m El) t) (start : Cancellable m (El t))
    (finish : El t → m (El t)) : (q.asBlock start finish).binds = q.length + 1 := by
  obtain ⟨steps⟩ := q
  refine congrArg (· + 1) ?_
  induction steps with
  | nil => rfl
  | cons step steps ih =>
    cases step with
    | bind k => exact congrArg (· + 1) ih
    | yield merges projection => exact (Builder.not_merges_cancellable merges).elim

/-- Evaluates up to the first computation and hands its run to `gate`. -/
def course {β : Type} : Block (Builder.cancellable m El) Env t → Env →
    (gate : (Signal m → m (Ending (El t))) → m β) → m β
  | bind comp extend rest, env, gate => do
    let c ← comp env
    gate fun signal => do
      if ← signal.poll then Cancellable.stop .beforeBind default
      else
        let ending ← Cancellable.run c signal
        if ending.cancelled then Cancellable.stop .inner (carry ending.value)
        else if ← signal.poll then Cancellable.stop .beforeContinuation (carry ending.value)
        else
          rest.course (extend ending.value env) fun next => do
            if ← signal.poll then Cancellable.stop .beforeNext (carry ending.value)
            else next signal
  | define extend rest, env, gate => do rest.course (← extend env) gate
  | yield merges _ _, _, _ => (Builder.not_merges_cancellable merges).elim
  | result value, env, gate => do
    let v ← value env
    gate fun _ => return ⟨v, false⟩
  | finish comp, env, gate => do
    let c ← comp env
    gate fun signal => Cancellable.run c signal

theorem build_gate [LawfulMonad m] {β : Type} (block : Block (Builder.cancellable m El) Env t)
    (env : Env) (gate : (Signal m → m (Ending (El t))) → m β) :
    (block.build env >>= fun c => gate (Cancellable.run c)) = block.course env gate := by
  induction block generalizing env β with
  | bind comp extend rest ih =>
    refine (bind_assoc _ _ _).trans (congrArg (comp env >>= ·) (funext fun c => ?_))
    refine (pure_bind _ _).trans (congrArg gate (funext fun signal => ?_))
    -- only the last step of the bind differs, where the rest is built and run
    simp only [← ih]
    exact Cancellable.run_flatMap c _ signal
  | define extend rest ih =>
    refine (bind_assoc _ _ _).trans (congrArg (extend env >>= ·) (funext fun env' => ?_))
    exact ih env' gate
  | yield merges value rest ih => exact (Builder.not_merges_cancellable merges).elim
  | result value => exact bind_map_left _ (value env) _
  | finish comp => rfl

end

end Block

/-! ## Stations of a run -/

/-- What the run of a block passes. -/
inductive Station where
  /-- A look at the signal. -/
  | look (at_ : Checkpoint)
  /-- An expression is evaluated. -/
  | call (closure : Nat)
  /-- A bound task is run. -/
  | task (closure : Nat)

namespace Station

/-- The record of a station that a run passes. -/
def passed : Station → Mark
  | look _ => .looked false
  | call closure => .called closure
  | task closure => .ran closure false

/-- The record of a station at which a run is cancelled, and the checkpoint that reports it. -/
def exit? : Station → Option (Mark × Checkpoint)
  | look at_ => some (.looked true, at_)
  | call _ => none
  | task closure => some (.ran closure true, .inner)

end Station

/-- The record of a run with this path that ended with this flag: all stations were passed, and
what comes last has a record of its own, or one of them was the exit. -/
inductive Travels (path : List Station) (last : Bool → List Mark) : List Mark → Bool → Prop where
  | through (flag : Bool) : Travels path last (path.map Station.passed ++ last flag) flag
  | off {front back : List Station} {station : Station} {cut : Mark} {at_ : Checkpoint}
      (hpath : path = front ++ station :: back) (hexit : station.exit? = some (cut, at_)) :
      Travels path last (front.map Station.passed ++ [cut, .noticed (.observed at_)]) true

namespace Travels

variable {path : List Station} {last : Bool → List Mark} {marks : List Mark} {flag : Bool}

theorem append (front : List Station) (h : Travels path last marks flag) :
    Travels (front ++ path) last (front.map Station.passed ++ marks) flag := by
  cases h with
  | through flag =>
    rw [← List.append_assoc, ← List.map_append]
    exact .through flag
  | @off before back station cut at_ hpath hexit =>
    rw [← List.append_assoc, ← List.map_append]
    exact .off (by rw [hpath, List.append_assoc]) hexit

/-- The run is cancelled at the first station. -/
theorem at_first {station : Station} {cut : Mark} {at_ : Checkpoint}
    (hexit : station.exit? = some (cut, at_)) :
    Travels (station :: path) last [cut, .noticed (.observed at_)] true := by
  have hpath : station :: path = [] ++ station :: path := rfl
  exact .off hpath hexit

end Travels

section
variable [Monad m] [Reports m]

namespace Block

/-- The expressions that are evaluated until there is a computation. The steps have numbers. -/
def evals : (i : Nat) → Block (Builder.cancellable m El) Env t → List Station
  | i, define _ rest => .call i :: rest.evals (i + 1)
  | _, yield merges _ _ => (Builder.not_merges_cancellable merges).elim
  | i, bind _ _ _ | i, result _ | i, finish _ => [.call i]

/-- The stations of the run of that computation. -/
def path : (i : Nat) → Block (Builder.cancellable m El) Env t → List Station
  | i, bind _ _ rest =>
    .look .beforeBind :: .task i :: .look .beforeContinuation ::
      (rest.evals (i + 1) ++ .look .beforeNext :: rest.path (i + 1))
  | i, define _ rest => rest.path (i + 1)
  | _, yield merges _ _ => (Builder.not_merges_cancellable merges).elim
  | _, result _ | _, finish _ => []

/-- The record of the final computation, if there is one. -/
def last : (i : Nat) → Block (Builder.cancellable m El) Env t → (flag : Bool) → List Mark
  | i, bind _ _ rest, flag | i, define _ rest, flag => rest.last (i + 1) flag
  | _, yield merges _ _, _ => (Builder.not_merges_cancellable merges).elim
  | _, result _, _ => []
  | i, finish _, flag => [.ran i flag]

theorem looks_evals (i : Nat) (block : Block (Builder.cancellable m El) Env t) :
    ((block.evals i).map Station.passed).filterMap Mark.look? = [] := by
  induction block generalizing i with
  | define extend rest ih => exact ih (i + 1)
  | yield merges value rest ih => exact (Builder.not_merges_cancellable merges).elim
  | bind | result | finish => rfl

/-- Three looks for every bind. -/
theorem looks_path (i : Nat) (block : Block (Builder.cancellable m El) Env t) :
    ((block.path i).map Station.passed).filterMap Mark.look? =
      .replicate (3 * block.binds) false := by
  induction block generalizing i with
  | bind comp extend rest ih =>
    have hrest : ((rest.evals (i + 1) ++ .look .beforeNext :: rest.path (i + 1)).map
        Station.passed).filterMap Mark.look? = false :: .replicate (3 * rest.binds) false := by
      rw [List.map_append, List.filterMap_append, looks_evals]
      exact congrArg (false :: ·) (ih (i + 1))
    exact congrArg (false :: false :: ·) hrest
  | define extend rest ih => exact ih (i + 1)
  | yield merges value rest ih => exact (Builder.not_merges_cancellable merges).elim
  | result | finish => rfl

end Block

end

/-! ## The record of a run -/

variable {ε W α β : Type} {path : List Station} {last : Bool → List Mark}

/-- Runs of `x` leave the record of a way along the path. -/
abbrev Passes (path : List Station) (last : Bool → List Mark) (x : Chronicled ε W (Ending α)) :
    Prop :=
  Adds x fun events ending => Travels path last (events.map Event.mark) ending.cancelled

/-- Runs of `c` leave the record of a way along the path. -/
def Cancellable.Takes (c : Cancellable (Chronicled ε W) α) (path : List Station)
    (last : Bool → List Mark) : Prop :=
  ∀ signal : Signal (EStateM ε W), Passes path last (c.run signal.chronicled)

variable [Reports (EStateM ε W)]

theorem Passes.checkpoint {at_ : Checkpoint} {a : α} {x : Chronicled ε W (Ending α)}
    (signal : Signal (EStateM ε W)) (h : Passes path last x) :
    Passes (.look at_ :: path) last (signal.chronicled.poll >>= fun answer =>
      if answer then Cancellable.stop at_ a else x) := by
  refine Adds.checkpoint ?_ (h.mono fun more ending htravels => htravels.append [.look at_])
  refine (Adds.stop at_ a).mono fun more ending ⟨hmore, hflag⟩ => ?_
  rw [hmore, hflag]
  exact .at_first rfl

theorem Passes.bound {i : Nat} {a : α → β} {f : Ending α → Chronicled ε W (Ending β)}
    (c : Cancellable (EStateM ε W) α) (signal : Signal (EStateM ε W))
    (h : ∀ ending, Passes path last (f ending)) :
    Passes (.task i :: path) last ((c.sealed i).run signal.chronicled >>= fun ending =>
      if ending.cancelled then Cancellable.stop .inner (a ending.value) else f ending) := by
  refine (Adds.run_sealed c i signal.chronicled).bind fun ending events hran => ?_
  split
  · rename_i hcut
    refine (Adds.stop _ _).mono fun more ending' ⟨hmore, hflag⟩ => ?_
    rw [List.map_append, hran, hmore, hflag, hcut]
    exact .at_first rfl
  · rename_i hcut
    have hflag : ending.cancelled = false := by simpa using hcut
    refine (h ending).mono fun more ending' htravels => ?_
    rw [List.map_append, hran, hflag]
    exact htravels.append [.task i]

theorem Cancellable.Takes.flatMap {i : Nat} (c : Cancellable (EStateM ε W) (El s))
    {k : El s → Chronicled ε W (Cancellable (Chronicled ε W) (El t))} {evals : List Station}
    (hk : ∀ u, Adds (k u) fun events next =>
      events.map Event.mark = evals.map Station.passed ∧ next.Takes path last) :
    ((c.sealed i).flatMap k).Takes (.look .beforeBind :: .task i :: .look .beforeContinuation ::
      (evals ++ .look .beforeNext :: path)) last := by
  intro signal
  rw [run_flatMap]
  refine Passes.checkpoint signal (Passes.bound c signal fun ending => ?_)
  refine Passes.checkpoint signal ((hk ending.value).bind fun next events ⟨hevals, hnext⟩ => ?_)
  refine (Passes.checkpoint signal (hnext signal)).mono fun more ending htravels => ?_
  rw [List.map_append, hevals]
  exact htravels.append evals

namespace Block

/-- The same block with a record of its expressions and of its tasks. -/
def chronicled : (i : Nat) → Block (Builder.cancellable (EStateM ε W) El) Env t →
    Block (Builder.cancellable (Chronicled ε W) El) Env t
  | i, bind comp extend rest =>
    bind (fun env => (Cancellable.sealed · i) <$> Chronicled.calling i (comp env)) extend
      (rest.chronicled (i + 1))
  | i, define extend rest =>
    define (fun env => Chronicled.calling i (extend env)) (rest.chronicled (i + 1))
  | _, yield merges _ _ => (Builder.not_merges_cancellable merges).elim
  | i, result value => result fun env => Chronicled.calling i (value env)
  | i, finish comp =>
    finish fun env => (Cancellable.sealed · i) <$> Chronicled.calling i (comp env)

theorem build_takes (i : Nat) (block : Block (Builder.cancellable (EStateM ε W) El) Env t)
    (env : Env) : Adds ((block.chronicled i).build env) fun events c =>
      events.map Event.mark = (block.evals i).map Station.passed ∧
        Cancellable.Takes c (block.path i) (block.last i) := by
  induction block generalizing i env with
  | bind comp extend rest ih =>
    refine (Adds.calling_sealed i (comp env)).bind fun bound events hbound => ?_
    obtain ⟨hcalled, c, rfl⟩ := hbound
    refine Adds.pure ⟨?_, Cancellable.Takes.flatMap c fun u => ih (i + 1) (extend u env)⟩
    rw [List.append_nil]
    exact hcalled
  | define extend rest ih =>
    refine (Adds.called i (extend env)).bind fun env' events hcalled => ?_
    refine (ih (i + 1) env').mono fun more c ⟨hevals, htakes⟩ => ⟨?_, htakes⟩
    rw [List.map_append, hcalled, hevals]
    rfl
  | yield merges value rest ih => exact (Builder.not_merges_cancellable merges).elim
  | result value =>
    refine (Adds.called i (value env)).map fun v events hcalled => ⟨hcalled, fun signal => ?_⟩
    exact .pure (.through false)
  | finish comp =>
    refine (Adds.calling_sealed i (comp env)).mono fun events final hfinal => ?_
    obtain ⟨hcalled, c, rfl⟩ := hfinal
    refine ⟨hcalled, fun signal => (Adds.run_sealed c i _).mono fun more ending hran => ?_⟩
    rw [hran]
    exact .through ending.cancelled

theorem build_shadows (i : Nat) (block : Block (Builder.cancellable (EStateM ε W) El) Env t)
    (env : Env) :
    Shadows Cancellable.Twins ((block.chronicled i).build env) (block.build env) := by
  induction block generalizing i env with
  | bind comp extend rest ih =>
    refine (Cancellable.Twins.calling_sealed i (comp env)).bind fun c d hcd => ?_
    exact .pure (hcd.flatMap fun u => ih (i + 1) (extend u env))
  | define extend rest ih =>
    exact (Shadows.calling i (extend env)).bind_same fun env' => ih (i + 1) env'
  | yield merges value rest ih => exact (Builder.not_merges_cancellable merges).elim
  | result value =>
    exact (Shadows.calling i (value env)).map_same fun v => .ofValue v
  | finish comp => exact Cancellable.Twins.calling_sealed i (comp env)

/-- **What a block of binds does.** Building the block and running what was built is `course`: the
expressions up to the first task are evaluated, and then every bind in turn looks, runs its task,
looks, evaluates the expressions up to the next task and looks again, and only then the next bind
starts; a bind that ends early answers the default before its task and carries the task's value
behind it. A run that does not panic passes all stations of that path, three looks for every bind,
and ends as the final computation does, or leaves it at one of them, with one notice of the
checkpoint there and with the flag set. A sequencer is such a block, with a bind for the start and
one for every step. -/
theorem build_eq_course (block : Block (Builder.cancellable (EStateM ε W) El) Env t) (env : Env) :
    block.build env = block.course env (fun run => pure ⟨run⟩) ∧
    ((block.path 0).map Station.passed).filterMap Mark.look? = .replicate (3 * block.binds) false ∧
    (∀ (signal : Signal (EStateM ε W)) (w₀ w₁ w w' : W) (d : Cancellable (EStateM ε W) (El t))
      (ending : Ending (El t)), block.build env w₀ = .ok d w₁ → d.run signal w = .ok ending w' →
      ∃ c built events, (block.chronicled 0).build env ⟨w₀, []⟩ = .ok c ⟨w₁, built⟩ ∧
        Cancellable.run c signal.chronicled ⟨w, []⟩ = .ok ending ⟨w', events⟩ ∧
        built.map Event.mark = (block.evals 0).map Station.passed ∧
        Travels (block.path 0) (block.last 0) (events.map Event.mark) ending.cancelled) ∧
    ∀ (q : Sequencer (Builder.cancellable (EStateM ε W) El) t)
      (start : Cancellable (EStateM ε W) (El t)) (finish : El t → EStateM ε W (El t)) (u : El t),
      (q.asBlock start finish).binds = q.length + 1 ∧
        q.build start finish = (do
          report (.building "CancellableBuilder" q.length)
          (q.asBlock start finish).build u) := by
  refine ⟨?_, block.looks_path 0, ?_, ?_⟩
  · rw [← block.build_gate env]
    exact (bind_pure _).symm
  · intro signal w₀ w₁ w w' d ending hbuild hrun
    obtain ⟨c, built, hc, htwins⟩ := (block.build_shadows 0 env).exists_record hbuild []
    obtain ⟨_, events, hrun', rfl⟩ := (htwins signal).exists_record hrun []
    obtain ⟨new, hnew, hevals, htakes⟩ := block.build_takes 0 env _ _ _ hc
    obtain ⟨new', hnew', htravels⟩ := htakes signal _ _ _ hrun'
    refine ⟨c, built, events, hc, hrun', ?_, ?_⟩
    · rw [show built = new by simpa using hnew]
      exact hevals
    · rw [show events = new' by simpa using hnew']
      exact htravels
  · exact fun q start finish u => ⟨binds_asBlock q start finish, q.build_eq_asBlock start finish u⟩

section
open Script

/-- One bind between a value and a computation that doubles it. -/
def doubled : Block (Builder.cancellable Act Script.El) Int64 .int :=
  bind (s := .int) (fun _ => return .ofValue 4) (fun u _ => u)
    (finish fun u => return .ofValue (u + u))

/-- Answers `true` when it is asked for the third time. -/
def thirdLook : Signal Act := ⟨do return (← Act.tick "looks") == 3⟩

theorem doubled_cut_off : ∃ d ending w' c built events,
    doubled.build 0 Session.fresh = .ok d Session.fresh ∧
    Cancellable.run d thirdLook Session.fresh = .ok ending w' ∧ ending = ⟨4, true⟩ ∧
    (doubled.chronicled 0).build 0 ⟨Session.fresh, []⟩ = .ok c ⟨Session.fresh, built⟩ ∧
    Cancellable.run c thirdLook.chronicled ⟨Session.fresh, []⟩ = .ok ending ⟨w', events⟩ ∧
    built.map Event.mark = (doubled.evals 0).map Station.passed ∧
    Travels (doubled.path 0) (doubled.last 0) (events.map Event.mark) true := by
  have hbuild : doubled.build 0 Session.fresh = .ok _ Session.fresh := rfl
  obtain ⟨c, built, events, hc, hrun, hevals, htravels⟩ := (build_eq_course doubled 0).2.2.1
    thirdLook _ _ Session.fresh _ _ ⟨4, true⟩ hbuild rfl
  exact ⟨_, _, _, c, built, events, rfl, rfl, rfl, hc, hrun, hevals, htravels⟩

end

end Block

end Workflow
