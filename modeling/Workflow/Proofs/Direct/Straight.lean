import Workflow.Proofs.Direct.Evaluations
import Workflow.Script.Eval

/-!
# Blocks without yields go straight on

A block over optional values, and a block over states, is the program that its lines spell when they
are read from top to bottom: `Block.direct` executes them in an environment that grows, without a
continuation. Over optional values the program leaves at the first absence; over states it threads
one state through the computations.

The two differ in when the lines are executed. An optional value is there when the block is built.
A block over states is executed in two parts: `Block.prepare` executes it up to the first
computation, once, and answers the program that every run executes from there.
-/

namespace Workflow

variable {ι : Type} {El : ι → Type} {Env : Type} {t : ι}

/-! ## The two parts of a block over states -/

section
variable {m : Type → Type} [Monad m] [LawfulMonad m] {S : Type} [∀ t, Inhabited (El t)]

/-- Executes the steps up to the first computation, and answers the program that goes on there. -/
def Block.prepare : Block (Builder.state m S El) Env t → Env → m (StateT S m (El t))
  | bind comp extend rest, env => do
    let c ← comp env
    return do
      let u ← Performance.state.perform c
      rest.direct Performance.state Builder.not_merges_state (extend u env)
  | define extend rest, env => do rest.prepare (← extend env)
  | yield merges _ _, _ => (Builder.not_merges_state merges).elim
  | result value, env => do
    let u ← value env
    return pure u
  | finish comp, env => do
    let c ← comp env
    return Performance.state.perform c

/-- Built and run once, a block over states is executed step by step. -/
theorem Block.run_build (block : Block (Builder.state m S El) Env t) (env : Env) (s : S) :
    (block.build env >>= fun c => State.run c s) =
      (block.direct Performance.state Builder.not_merges_state env).run s := by
  rw [← Performance.performed_build]
  exact (Performance.run_state (block.build env) s).symm

/-- What is built is the second part; the first part is what building does. -/
theorem Block.build_eq_prepare (block : Block (Builder.state m S El) Env t) (env : Env) :
    block.build env = State.mk <$> block.prepare env := by
  induction block generalizing env with
  | bind comp extend rest ih =>
    rw [prepare, map_bind]
    refine bind_congr fun c => ?_
    rw [map_pure]
    refine congrArg (fun run => pure (State.mk run)) (funext fun s => ?_)
    exact bind_congr fun p => rest.run_build (extend p.1 env) p.2
  | define extend rest ih =>
    rw [prepare, map_bind]
    exact bind_congr fun env' => ih env'
  | yield merges value rest ih => exact (Builder.not_merges_state merges).elim
  | result value =>
    rw [prepare, map_bind]
    simp only [map_pure]
    exact map_eq_pure_bind _ _
  | finish comp =>
    rw [prepare, map_bind]
    simp only [map_pure]
    exact (bind_pure _).symm

end

/-! ## Straight on -/

section
variable {ε W S : Type}

/-- A block over optional values goes on step by step and leaves at the first absence. -/
structure Block.LeavesEarly (block : Block (Builder.optional (EStateM ε W) El) Env t)
    (env : Env) : Prop where
  /-- Building it is executing its steps; it comes to nothing where the program leaves. -/
  direct : block.build env =
    (block.direct Performance.optional Builder.not_merges_optional env).run
  /-- The expressions are evaluated in order: all of them, or those up to the first one whose
  computation is absent. -/
  evaluated {w w' : W} {o : Option (El t)} (hbuild : block.build env w = .ok o w') :
    ∃ events,
      (block.recorded .optional Builder.not_merges_optional 0).build env ⟨w, []⟩ =
        .ok o ⟨w', events⟩ ∧
      Exits (block.evaluations 0) (events.map Event.mark) o.isNone

variable [∀ t, Inhabited (El t)]

/-- A block over states goes on step by step and threads a state. -/
structure Block.ThreadsState (block : Block (Builder.state (EStateM ε W) S El) Env t)
    (env : Env) : Prop where
  /-- Building it and running it once is executing its steps. -/
  direct (s : S) : (block.build env >>= fun c => State.run c s) =
    (block.direct Performance.state Builder.not_merges_state env).run s
  /-- Building it is executing the steps up to the first computation, and every run goes on from
  there. -/
  divided : block.build env = State.mk <$> block.prepare env
  /-- Each expression is in one of the two parts, once and in its place. -/
  numbered : (block.opening 0).filterMap Mark.called? ++
    (block.following 0).filterMap Mark.called? = List.range block.length
  /-- While the block is built, the first part is evaluated, and in every run that does not panic
  the second. -/
  evaluated {w w' : W} {c : State (EStateM ε W) S (El t)}
      (hbuild : block.build env w = .ok c w') :
    ∃ (d : State (Chronicled ε W) S (El t)) (events : List (Event ε W)),
      (block.recorded .state Builder.not_merges_state 0).build env ⟨w, []⟩ =
        .ok d ⟨w', events⟩ ∧
      events.map Event.mark = block.opening 0 ∧ d.Twins c ∧ d.Leaves (block.following 0)
  /-- Runs in a row evaluate the first part once, and the second once each. -/
  repeated {starts : List S} {w w' : W} {ends : List (El t × S)}
      (hruns : (block.build env >>= fun c => starts.mapM (State.run c)) w = .ok ends w') :
    ∃ events,
      ((block.recorded .state Builder.not_merges_state 0).build env >>= fun d =>
        starts.mapM (State.run d)) ⟨w, []⟩ = .ok ends ⟨w', events⟩ ∧
      events.map Event.mark =
        block.opening 0 ++ (List.replicate starts.length (block.following 0)).flatten

end

variable {ε W S : Type}

theorem Block.leavesEarly (block : Block (Builder.optional (EStateM ε W) El) Env t) (env : Env) :
    block.LeavesEarly env where
  direct := by
    rw [← Performance.performed_build]
    exact (Performance.run_optional (block.build env)).symm
  evaluated {w w' o} hbuild := by
    have hshadows := block.recorded_shadows .optional Builder.not_merges_optional 0 env
    obtain ⟨_, events, hrecord, rfl, hexits⟩ :=
      (block.build_exits 0 env).exists_record hshadows hbuild
    exact ⟨events, hrecord, hexits⟩

theorem Block.threadsState [∀ t, Inhabited (El t)]
    (block : Block (Builder.state (EStateM ε W) S El) Env t) (env : Env) :
    block.ThreadsState env where
  direct s := block.run_build env s
  divided := block.build_eq_prepare env
  numbered := by rw [block.called_opening_following, List.range_eq_range']
  evaluated {w w' c} hbuild := by
    have hshadows := block.recorded_shadows .state Builder.not_merges_state 0 env
    obtain ⟨d, events, hrecord, htwins, hopening, hleaves⟩ :=
      (block.build_opens 0 env).exists_record hshadows hbuild
    exact ⟨d, events, hrecord, hopening, htwins, hleaves⟩
  repeated {starts w w' ends} hruns := by
    have hshadows := (block.recorded_shadows .state Builder.not_merges_state 0 env).bind (S := Eq)
      fun d c htwins => State.Twins.runs htwins starts
    have hadds := (block.build_opens 0 env).bind (Q := fun events (_ : List (El t × S)) =>
        events.map Event.mark =
          block.opening 0 ++ (List.replicate starts.length (block.following 0)).flatten)
      fun d events ⟨hopening, hleaves⟩ => (hleaves.runs starts).mono fun more _ hmore => by
        rw [List.map_append, hopening, hmore]
    obtain ⟨_, events, hrecord, rfl, hmarks⟩ := hadds.exists_record hshadows hruns
    exact ⟨events, hrecord, hmarks⟩

/-- **Blocks without yields are direct-style programs.** A block over optional values is executed
step by step up to the first absence, and no expression behind it is evaluated. A block over states
is executed step by step with one state; it is evaluated up to the first computation while it is
built, and from there in every run. Where the environment is one of names, the innermost binding of
a name wins. -/
theorem Block.goes_straight [∀ t, Inhabited (El t)] (ε W S Env : Type) (t : ι) :
    (∀ (block : Block (Builder.optional (EStateM ε W) El) Env t) (env : Env),
      block.LeavesEarly env) ∧
    (∀ (block : Block (Builder.state (EStateM ε W) S El) Env t) (env : Env),
      block.ThreadsState env) ∧
    ∀ (names : Script.Env) (x y : String) (v : Script.Datum),
      (names.define x v).find y = if y = x then return v else names.find y :=
  ⟨fun block env => block.leavesEarly env, fun block env => block.threadsState env,
    fun names x y v => names.find_define x y v⟩

section
open Script

/-- Adds `step`, which is rebound on the way, to the state, and answers what the state was. -/
def stepping : Block (Builder.state Act Int64 Script.El) Script.Env .int :=
  .define (fun env => do return env.define "step" (.int (← Act.tick "made")))
    (.define (fun env => return env.define "step" (.int 10))
      (.bind (s := .int) (fun _ => do
          let _ ← Act.tick "opened"
          return (State.get : State Act Int64 Int64))
        (fun u env => env.bind (t := .int) "before" u)
        (.bind (s := .unit) (fun env => do
            let step ← (← env.find "step").toEl .int
            let before ← (← env.find "before").toEl .int
            return (State.put (before + step) : State Act Int64 Unit))
          (fun _ env => env)
          (.result fun env => do
            let _ ← Act.tick "ended"
            (← env.find "before").toEl .int))))

/-- Built once and run twice. -/
def steppedTwice : Act (List (Int64 × Int64)) := do
  let c ← stepping.build Script.Env.empty
  [0, 7].mapM (State.run c)

/-- Gives up in the middle. -/
def broken : Block (Builder.optional Act Script.El) Script.Env .int :=
  .bind (s := .int) (fun _ => return some 1) (fun u env => env.bind (t := .int) "x" u)
    (.bind (s := .int) (fun _ => return none) (fun u env => env.bind (t := .int) "x" u)
      (.result fun env => do
        let _ ← Act.tick "late"
        (← env.find "x").toEl .int))

theorem stepping_goes_straight : ∃ w events events',
    steppedTwice Session.fresh = .ok [(0, 10), (7, 17)] w ∧
    (w.counters.find? "made", w.counters.find? "opened", w.counters.find? "ended") =
      (some 1, some 1, some 2) ∧
    ((stepping.recorded .state Builder.not_merges_state 0).build Script.Env.empty >>= fun d =>
      [0, 7].mapM (State.run d)) ⟨Session.fresh, []⟩ = .ok [(0, 10), (7, 17)] ⟨w, events⟩ ∧
    events.map Event.mark = [.called 0, .called 1, .called 2,
      .ran 2 false, .called 3, .ran 3 false, .called 4,
      .ran 2 false, .called 3, .ran 3 false, .called 4] ∧
    broken.build Script.Env.empty Session.fresh = .ok none Session.fresh ∧
    (broken.recorded .optional Builder.not_merges_optional 0).build Script.Env.empty
      ⟨Session.fresh, []⟩ = .ok none ⟨Session.fresh, events'⟩ ∧
    Exits (broken.evaluations 0) (events'.map Event.mark) true := by
  have hstraight := @Block.goes_straight Ty Script.El _ Fault Session Int64 Script.Env .int
  have htwice : steppedTwice Session.fresh = .ok [(0, 10), (7, 17)] _ := rfl
  have hbroken : broken.build Script.Env.empty Session.fresh = .ok none _ := rfl
  obtain ⟨events, hrecord, hmarks⟩ := (hstraight.2.1 stepping Script.Env.empty).repeated htwice
  obtain ⟨events', hrecord', hexits⟩ := (hstraight.1 broken Script.Env.empty).evaluated hbroken
  exact ⟨_, events, events', htwice, rfl, hrecord, hmarks, hbroken, hrecord', hexits⟩

end

end Workflow
