import Workflow.Proofs.Nesting.Right
import Workflow.Proofs.Signal.Lasting

/-!
# What a cancelled block keeps

A block is a nest of binds, each in the continuation of the one before. Every bind looks at the signal
before it starts its task, and if that look finds a cancellation the bind answers the default: the
value of the bind before it would be lost. Between the last look of one bind and the first look of the
next nothing is called, though. So as long as only user code changes what the signal answers, a first
look finds a cancellation only if it was there before the run; everywhere else the run keeps the value
that came last.

`Block.told` is the run of a block that also tells what it passes: looks and their answers, values of
bound tasks, the start of the final computation. Without the telling it is the run that `build`
makes (`build_eq_told`). The result is `keeps_last_value`, for blocks over one type whose tasks do
not come back cancelled on their own.
-/

namespace Workflow

variable {m : Type → Type} {ι : Type} {El : ι → Type} {Env : Type} {s t : ι}

/-! ## Runs that tell what they pass -/

/-- What the run of a block passes. -/
inductive Passage (El : ι → Type) where
  /-- A look at the signal, and its answer. -/
  | look (at_ : Checkpoint) (answer : Bool)
  /-- A bound task came to its end with this value. -/
  | bound {s : ι} (value : El s)
  /-- The final computation was started. -/
  | final

def Passage.isLook : Passage El → Bool
  | look _ _ => true
  | bound _ | final => false

/-- How a run ended, and what it passed. -/
structure Told (El : ι → Type) (t : ι) where
  passages : List (Passage El)
  ending : Ending (El t)

namespace Told

/-- The same, with more passages in front. -/
def after (front : List (Passage El)) (told : Told El t) : Told El t :=
  { told with passages := front ++ told.passages }

variable [Monad m]

/-- The task of a run that tells what it passes, without the telling. -/
def task (run : Signal m → m (Told El t)) : Cancellable m (El t) :=
  ⟨fun signal => Told.ending <$> run signal⟩

variable [LawfulMonad m]

theorem ending_mk (passages : List (Passage El)) (x : m (Ending (El t))) :
    Told.ending <$> (Told.mk passages <$> x) = x := by
  rw [← comp_map]
  exact id_map x

theorem ending_after (front : List (Passage El)) (x : m (Told El t)) :
    Told.ending <$> (after front <$> x) = Told.ending <$> x := by
  rw [← comp_map]
  rfl

end Told

variable [DecidableEq ι] [∀ t, Inhabited (El t)]

section
variable [Monad m] [Reports m]

namespace Block

/-- Evaluates up to the first computation; its run tells what it passes. -/
def told : Block (Builder.cancellable m El) Env t → Env → m (Signal m → m (Told El t))
  | bind comp extend rest, env => do
    let c ← comp env
    return fun signal => do
      if ← signal.poll then
        Told.mk [.look .beforeBind true] <$> Cancellable.stop .beforeBind default
      else
        let ending ← Cancellable.run c signal
        let begun := [.look .beforeBind false, .bound ending.value]
        if ending.cancelled then
          Told.mk begun <$> Cancellable.stop .inner (carry ending.value)
        else if ← signal.poll then
          Told.mk (begun ++ [.look .beforeContinuation true]) <$>
            Cancellable.stop .beforeContinuation (carry ending.value)
        else
          let next ← rest.told (extend ending.value env)
          if ← signal.poll then
            Told.mk (begun ++ [.look .beforeContinuation false, .look .beforeNext true]) <$>
              Cancellable.stop .beforeNext (carry ending.value)
          else
            Told.after (begun ++ [.look .beforeContinuation false, .look .beforeNext false]) <$>
              next signal
  | define extend rest, env => do rest.told (← extend env)
  | yield merges _ _, _ => (Builder.not_merges_cancellable merges).elim
  | result value, env => do
    let v ← value env
    return fun _ => return ⟨[.final], ⟨v, false⟩⟩
  | finish comp, env => do
    let c ← comp env
    return fun signal => Told.mk [.final] <$> Cancellable.run c signal

/-- Without the telling it is the run of what is built. -/
theorem task_told [LawfulMonad m] (block : Block (Builder.cancellable m El) Env t) (env : Env) :
    Told.task <$> block.told env = block.build env := by
  induction block generalizing env with
  | bind comp extend rest ih =>
    refine (map_bind _ _ _).trans (congrArg (comp env >>= ·) (funext fun c => ?_))
    refine (map_pure _ _).trans (congrArg (fun run => pure (Cancellable.mk run)) ?_)
    funext signal
    simp only [map_bind, apply_ite (Told.ending <$> ·), Told.ending_mk, Told.ending_after]
    -- only the last step of the bind differs, where the rest is built and run
    simp only [← ih, bind_map_left]
    rfl
  | define extend rest ih =>
    refine (map_bind _ _ _).trans (congrArg (extend env >>= ·) (funext fun env' => ?_))
    exact ih env'
  | yield merges value rest ih => exact (Builder.not_merges_cancellable merges).elim
  | result value =>
    refine (map_bind _ _ _).trans (Eq.trans ?_ (map_eq_pure_bind _ _).symm)
    refine congrArg (value env >>= ·) (funext fun v => (map_pure _ _).trans ?_)
    exact congrArg (fun run => pure (Cancellable.mk run)) (funext fun _ => map_pure _ _)
  | finish comp =>
    refine (map_bind _ _ _).trans (Eq.trans ?_ (bind_pure (comp env)))
    refine congrArg (comp env >>= ·) (funext fun c => (map_pure _ _).trans ?_)
    exact congrArg (fun run => pure (Cancellable.mk run)) (funext fun _ => Told.ending_mk _ _)

end Block

end

/-! ## Tasks that do not come back cancelled on their own -/

variable {ε W α β : Type}

/-- No run of the task comes back cancelled. -/
def Cancellable.Prompt (c : Cancellable (EStateM ε W) α) : Prop :=
  ∀ ⦃signal w ending w'⦄, c.run signal w = .ok ending w' → ending.cancelled = false

namespace Cancellable

theorem prompt_ofValue (a : α) : (ofValue a : Cancellable (EStateM ε W) α).Prompt := by
  intro signal w ending w' hrun
  cases hrun
  rfl

theorem prompt_delay (work : EStateM ε W α) : (delay work).Prompt := by
  intro signal w ending w' hrun
  obtain ⟨a, w₁, -, hpure⟩ := exists_of_bind_ok hrun
  cases hpure
  rfl

/-- What user code answers is prompt. -/
def AnswersPrompt (act : EStateM ε W (Cancellable (EStateM ε W) α)) : Prop :=
  ∀ ⦃w c w'⦄, act w = .ok c w' → c.Prompt

end Cancellable

variable [Reports (EStateM ε W)]

/-- All binds are over the block's own type, and no task comes back cancelled on its own. -/
def Block.Prompt : Block (Builder.cancellable (EStateM ε W) El) Env t → Prop
  | @bind _ _ _ _ _ _ s comp _ rest =>
    s = t ∧ (∀ env, Cancellable.AnswersPrompt (comp env)) ∧ rest.Prompt
  | define _ rest => rest.Prompt
  | yield merges _ _ => (Builder.not_merges_cancellable merges).elim
  | result _ => True
  | finish comp => ∀ env, Cancellable.AnswersPrompt (comp env)

/-- The task that a recorded step answers does not come back cancelled on its own. -/
def Step.Prompt : Step (Builder.cancellable (EStateM ε W) El) t → Prop
  | bind k => ∀ u, Cancellable.AnswersPrompt (k u)
  | yield merges _ => (Builder.not_merges_cancellable merges).elim

theorem Block.prompt_asBlock (q : Sequencer (Builder.cancellable (EStateM ε W) El) t)
    {start : Cancellable (EStateM ε W) (El t)} (finish : El t → EStateM ε W (El t))
    (hstart : start.Prompt) (hsteps : ∀ step ∈ q.steps, step.Prompt) :
    (q.asBlock start finish).Prompt := by
  obtain ⟨steps⟩ := q
  have hanswers : Cancellable.AnswersPrompt
      (pure start : EStateM ε W (Cancellable (EStateM ε W) (El t))) := by
    intro w c w' h
    cases h
    exact hstart
  refine ⟨rfl, fun _ => hanswers, ?_⟩
  change ∀ step ∈ steps, _ at hsteps
  induction steps with
  | nil => trivial
  | cons step steps ih =>
    have hrest := ih fun step hstep => hsteps step (List.mem_cons_of_mem _ hstep)
    have hstep := hsteps step (List.mem_cons_self ..)
    cases step with
    | bind k => exact ⟨rfl, hstep, hrest⟩
    | yield merges projection => exact (Builder.not_merges_cancellable merges).elim

/-! ## The last value -/

/-- No bind was cut off before its task; and if the run was cut off, it kept the value of the task
that came last, and only looked at the signal after it. -/
structure Told.KeepsLast (told : Told El t) : Prop where
  started : .look .beforeBind true ∉ told.passages
  kept : told.ending.cancelled = true →
    .final ∉ told.passages ∧ ∃ front back,
      told.passages = front ++ .bound told.ending.value :: back ∧ back.all Passage.isLook

namespace Told.KeepsLast

omit [DecidableEq ι] [∀ t, Inhabited (El t)]

theorem final (v : El t) : (Told.mk [.final] ⟨v, false⟩).KeepsLast where
  started := by simp
  kept hcancelled := nomatch hcancelled

/-- A bind is cut off behind its task. -/
theorem cut_off (u : El t) {looks : List (Passage El)}
    (hstarted : .look .beforeBind true ∉ looks) (hlooks : looks.all Passage.isLook) :
    (Told.mk ([.look .beforeBind false, .bound u] ++ looks) ⟨u, true⟩).KeepsLast where
  started := by simpa using hstarted
  kept _ := by
    refine ⟨fun hfinal => ?_, [.look .beforeBind false], looks, rfl, hlooks⟩
    have hmem : .final ∈ looks := by simpa using hfinal
    exact absurd (List.all_eq_true.mp hlooks _ hmem) Bool.false_ne_true

/-- A bind is passed, and the run goes on behind it. -/
theorem after {told : Told El t} (h : told.KeepsLast) {front : List (Passage El)}
    (hstarted : .look .beforeBind true ∉ front) (hfinal : .final ∉ front) :
    (told.after front).KeepsLast where
  started hmem := (List.mem_append.mp hmem).elim hstarted h.started
  kept hcancelled := by
    obtain ⟨hfinal', before, back, hpassages, hback⟩ := h.kept hcancelled
    refine ⟨fun hmem => (List.mem_append.mp hmem).elim hfinal hfinal', front ++ before, back, ?_,
      hback⟩
    rw [List.append_assoc]
    exact congrArg (front ++ ·) hpassages

end Told.KeepsLast

namespace Block

variable {signal : Signal (EStateM ε W)} {asked : W → Bool}

omit [DecidableEq ι] [∀ t, Inhabited (El t)] in
/-- A bind that is cut off tells what it passed. -/
theorem told_stop {passages : List (Passage El)} {at_ : Checkpoint} {v : El t} {w w' : W}
    {told : Told El t}
    (h : (Told.mk passages <$> Cancellable.stop at_ v : EStateM ε W (Told El t)) w = .ok told w') :
    told = ⟨passages, ⟨v, true⟩⟩ := by
  obtain ⟨ending, hstop, rfl⟩ := exists_of_map_ok h
  obtain ⟨_, w₁, -, hpure⟩ := exists_of_bind_ok hstop
  cases hpure
  rfl

/-- A run that is started when cancellation was asked for already looks once and stops. -/
theorem run_told_asked (hsignal : signal.Tells asked)
    (block : Block (Builder.cancellable (EStateM ε W) El) Env t) (hbinds : 0 < block.binds)
    {env : Env} {w₀ w₁ w : W} {run : Signal (EStateM ε W) → EStateM ε W (Told El t)}
    (htold : block.told env w₀ = .ok run w₁) (hasked : asked w = true) :
    ∃ w', signal.poll w = .ok true w' ∧ run signal w =
      (Told.mk [.look .beforeBind true] <$> Cancellable.stop .beforeBind default :
        EStateM ε W (Told El t)) w' := by
  induction block generalizing env w₀ w₁ run with
  | bind comp extend rest ih =>
    obtain ⟨c, w₂, -, hpure⟩ := exists_of_bind_ok htold
    cases hpure
    obtain ⟨w', hpoll, -⟩ := hsignal w
    rw [hasked] at hpoll
    exact ⟨w', hpoll, bind_of_ok hpoll _⟩
  | define extend rest ih =>
    obtain ⟨env', w₂, -, htold⟩ := exists_of_bind_ok htold
    exact ih hbinds htold
  | yield merges value rest ih => exact (Builder.not_merges_cancellable merges).elim
  | result | finish => exact absurd hbinds (Nat.lt_irrefl 0)

/-- **The step.** While nobody has asked for cancellation, a run that is started keeps the value that
comes last. The induction is on the block: the world in which a bind's last look was answered `false`
is the world in which the next run is started. -/
theorem run_told_keepsLast (hsignal : signal.Tells asked)
    (block : Block (Builder.cancellable (EStateM ε W) El) Env t) (hprompt : block.Prompt) {env : Env}
    {w₀ w₁ w w' : W} {run : Signal (EStateM ε W) → EStateM ε W (Told El t)} {told : Told El t}
    (htold : block.told env w₀ = .ok run w₁) (hasked : asked w = false)
    (hrun : run signal w = .ok told w') : told.KeepsLast := by
  induction block generalizing env w₀ w₁ w w' run told with
  | bind comp extend rest ih =>
    obtain ⟨rfl, hcomp, hrest⟩ := hprompt
    obtain ⟨c, w₂, hc, hpure⟩ := exists_of_bind_ok htold
    cases hpure
    -- the first look finds what was there before the run
    obtain ⟨hset, -⟩ | ⟨-, w₃, -, hrun⟩ := hsignal.cases_look hrun
    · rw [hasked] at hset
      cases hset
    obtain ⟨ending, w₄, hran, hrun⟩ := exists_of_bind_ok hrun
    have hflag : ending.cancelled = false := hcomp env hc hran
    simp only [hflag, carry_self, Bool.false_eq_true, if_false] at hrun
    obtain ⟨-, w₅, hrun⟩ | ⟨-, w₅, -, hrun⟩ := hsignal.cases_look hrun
    · rw [told_stop hrun]
      exact .cut_off ending.value (by simp) rfl
    obtain ⟨next, w₆, hnext, hrun⟩ := exists_of_bind_ok hrun
    obtain ⟨-, w₇, hrun⟩ | ⟨-, w₇, hunasked, hrun⟩ := hsignal.cases_look hrun
    · rw [told_stop hrun]
      exact .cut_off ending.value (by simp) rfl
    · obtain ⟨told', hrun', rfl⟩ := exists_of_map_ok hrun
      exact (ih hrest hnext hunasked hrun').after (by simp) (by simp)
  | define extend rest ih =>
    obtain ⟨env', w₂, -, htold⟩ := exists_of_bind_ok htold
    exact ih hprompt htold hasked hrun
  | yield merges value rest ih => exact (Builder.not_merges_cancellable merges).elim
  | result value =>
    obtain ⟨v, w₂, -, hpure⟩ := exists_of_bind_ok htold
    cases hpure
    cases hrun
    exact .final v
  | finish comp =>
    obtain ⟨c, w₂, hc, hpure⟩ := exists_of_bind_ok htold
    cases hpure
    obtain ⟨⟨v, cancelled⟩, hran, rfl⟩ := exists_of_map_ok hrun
    have hflag : cancelled = false := hprompt env hc hran
    subst hflag
    exact .final v

/-- **A cancelled block keeps the last completed value.** Let a block over one type have a bind, and
let none of its tasks come back cancelled on its own. The run that was built tells what it passes
without being changed by that. If cancellation was asked for before the run, its first look is all
that happens, and the result is the default; otherwise the run keeps the value of the task that came
last, starts no task after that, and no bind is cut off before its task. Sequencers are such blocks. -/
theorem keeps_last_value (hsignal : signal.Tells asked)
    (block : Block (Builder.cancellable (EStateM ε W) El) Env t) (hbinds : 0 < block.binds)
    (hprompt : block.Prompt) {env : Env} {w₀ w₁ : W} {d : Cancellable (EStateM ε W) (El t)}
    (hbuild : block.build env w₀ = .ok d w₁) :
    (∃ run : Signal (EStateM ε W) → EStateM ε W (Told El t),
      block.told env w₀ = .ok run w₁ ∧ d = Told.task run ∧
      (∀ w, asked w = true → ∃ w', signal.poll w = .ok true w' ∧ run signal w =
        (Told.mk [.look .beforeBind true] <$> Cancellable.stop .beforeBind default :
          EStateM ε W (Told El t)) w') ∧
      ∀ w w' told, asked w = false → run signal w = .ok told w' → told.KeepsLast) ∧
    ∀ (q : Sequencer (Builder.cancellable (EStateM ε W) El) t)
      (start : Cancellable (EStateM ε W) (El t)) (finish : El t → EStateM ε W (El t)) (u : El t),
      start.Prompt → (∀ step ∈ q.steps, step.Prompt) →
        (q.asBlock start finish).Prompt ∧ 0 < (q.asBlock start finish).binds ∧
          q.build start finish = (do
            report (.building "CancellableBuilder" q.length)
            (q.asBlock start finish).build u) := by
  refine ⟨?_, fun q start finish u hstart hsteps => ⟨?_, ?_, q.build_eq_asBlock start finish u⟩⟩
  · rw [← task_told] at hbuild
    obtain ⟨run, htold, rfl⟩ := exists_of_map_ok hbuild
    refine ⟨run, htold, rfl, fun w hasked => ?_, fun w w' told hasked hrun => ?_⟩
    · exact run_told_asked hsignal block hbinds htold hasked
    · exact run_told_keepsLast hsignal block hprompt htold hasked hrun
  · exact prompt_asBlock q finish hstart hsteps
  · rw [binds_asBlock]
    exact Nat.succ_pos _

section
open Script

/-- A session with a source. -/
def sourced : Session :=
  { Session.fresh with signals := Signal.Registry.empty.bindSource "stop" none }

/-- Whether the first source of the session was cancelled. -/
def stopped (session : Session) : Bool := session.signals.tree.isCancelled 0

/-- Counts, cancels, and counts on. -/
def interrupted : Block (Builder.cancellable Act Script.El) Int64 .int :=
  bind (s := .int) (fun _ => return .delay (Act.tick "count")) (fun u _ => u)
    (define (fun u => do Act.cancel "stop"; return u)
      (bind (s := .int) (fun u => return .ofValue (u + 10)) (fun u _ => u)
        (result fun u => return u)))

theorem interrupted_prompt : interrupted.Prompt := by
  refine ⟨rfl, fun _ w c w' h => ?_, rfl, fun _ w c w' h => ?_, trivial⟩
  · cases h
    exact Cancellable.prompt_delay _
  · cases h
    exact Cancellable.prompt_ofValue _

theorem interrupted_keeps_one : ∃ run told w',
    interrupted.build 0 sourced = .ok (Told.task run) sourced ∧ stopped sourced = false ∧
    run (.reading stopped) sourced = .ok told w' ∧ told.ending = ⟨1, true⟩ ∧ told.KeepsLast := by
  have hunset : stopped sourced = false := by decide
  have htold : interrupted.told 0 sourced = .ok _ sourced := rfl
  obtain ⟨⟨run, hrun, htask, -, hkeeps⟩, -⟩ := keeps_last_value (Signal.tells_reading stopped)
    interrupted (by decide) interrupted_prompt rfl
  rw [htold] at hrun
  cases hrun
  exact ⟨_, _, _, congrArg (EStateM.Result.ok · sourced) htask, hunset, rfl, rfl,
    hkeeps _ _ _ hunset rfl⟩

end

end Block

end Workflow
