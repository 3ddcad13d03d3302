import Workflow.Proofs.Direct.Evaluations
import Workflow.Proofs.Direct.Laws
import Workflow.Proofs.Nesting.Right
import Workflow.Proofs.Nesting.WrittenOut

/-!
# Splitting a sequencer

The steps of a sequencer can be divided: the first of them, which have to be binds, are built with a
finish that changes nothing, and what comes of that is the start for the others. If the closures are
settled, this makes no difference.

What computations come to is found out by putting them to `use`: optional values and sequences are
looked at, a state transformer is run from a state, a task is run where nobody cancels it. With
settled closures there is one answer for each question, and a `Reading` computes it without a world.
There, binds are sequencing with laws of its own, and a step is one more bind
(`Reading.binds_come`); that is the induction over the first steps.
-/

namespace Workflow

variable {ε W : Type} {ι : Type} {El : ι → Type} {t : ι}

theorem Cancellable.ReportsSafely.answers [Reports (EStateM ε W)]
    (h : Cancellable.ReportsSafely ε W) (n : Notice) :
    Answers (report n : EStateM ε W Unit) (some ()) := by
  intro w
  obtain ⟨w', hw⟩ := h n w
  rw [hw]
  rfl

section
variable {b : Builder (EStateM ε W) El} {Ask Told : Type}
  (use : Ask → b.Comp t → EStateM ε W Told)

/-- Whatever is asked of the computation that `x` makes, the answer is that of `d`. -/
def Comes (x : EStateM ε W (b.Comp t)) (d : Ask → Option Told) : Prop :=
  ∀ ask, Answers (x >>= use ask) (d ask)

/-- The closure of the step is settled, and so is what can be asked of the computations that it
makes. -/
def Step.Settled : Step b t → Prop
  | bind k => Workflow.Settled fun p : El t × Ask => k p.1 >>= use p.2
  | yield _ projection => Workflow.Settled projection

/-- Steps with settled closures may be divided behind any number of binds. -/
def Sequencer.Splits [Reports (EStateM ε W)] : Prop :=
  ∀ (front : List (El t → EStateM ε W (b.Comp t))) (back : Sequencer b t) (start : b.Comp t)
    (finish : El t → EStateM ε W (El t)),
    (∀ k ∈ front, (Step.bind k).Settled use) → (∀ step ∈ back.steps, step.Settled use) →
    Settled (fun ask => use ask start) → Settled finish → ∀ ask,
    SameAnswers (((ofBinds front).append back).build start finish >>= use ask)
      (do
        let first ← (ofBinds front).build start pure
        let c ← back.build first finish
        use ask c)

/-- What settled computations of `b` come to when they are put to use. -/
structure Reading where
  ret : El t → Ask → Option Told
  seq : (Ask → Option Told) → (El t → Ask → Option Told) → Ask → Option Told
  /-- A value in front, for a builder that merges. -/
  front : b.Merges → El t → (Ask → Option Told) → Ask → Option Told
  seq_ret (u : El t) (f : El t → Ask → Option Told) : seq (ret u) f = f u
  seq_assoc (d : Ask → Option Told) (f g : El t → Ask → Option Told) :
    seq (seq d f) g = seq d fun u => seq (f u) g
  pure_comes (u : El t) : Comes use (pure (b.pure u)) (ret u)
  bind_comes {x : EStateM ε W (b.Comp t)} {k : El t → EStateM ε W (b.Comp t)}
    {d : Ask → Option Told} {f : El t → Ask → Option Told} (hx : Comes use x d)
    (hk : ∀ u, Comes use (k u) (f u)) : Comes use (x >>= fun c => b.bind c k) (seq d f)
  prepend_comes (h : b.Merges) (v : El t) {x : EStateM ε W (b.Comp t)} {d : Ask → Option Told}
    (hx : Comes use x d) : Comes use (b.prepend h v <$> x) (front h v d)
  /-- Something may be done between making a bind and putting it to use. -/
  late {c : b.Comp t} {k : El t → EStateM ε W (b.Comp t)} {act : EStateM ε W Unit}
    {d : Ask → Option Told} (hact : Answers act (some ())) (h : Comes use (b.bind c k) d) :
    Comes use (do let made ← b.bind c k; act; return made) d

variable {use}

/-- What an act answers may decide what is made. -/
theorem Comes.after {α : Type} {act : EStateM ε W α} {o : Option α}
    {x : α → EStateM ε W (b.Comp t)} {d : α → Ask → Option Told} (hact : Answers act o)
    (hx : ∀ a, Comes use (x a) (d a)) :
    Comes use (act >>= x) fun ask => o >>= fun a => d a ask := by
  intro ask
  rw [bind_assoc]
  exact hact.bind fun a => hx a ask

/-- Where making a computation does nothing, the use of it may wait. -/
theorem Comes.late {x : EStateM ε W (b.Comp t)} {c : b.Comp t} (hx : x = pure c)
    {act : EStateM ε W Unit} (hact : Answers act (some ())) {d : Ask → Option Told}
    (h : Comes use x d) : Comes use (do let made ← x; act; return made) d := by
  subst hx
  intro ask
  have hlate := hact.bind (F := fun _ => d ask) fun _ => h ask
  simp only [pure_bind, bind_assoc] at hlate ⊢
  exact hlate

namespace Reading

variable (R : Reading use)
include R

theorem start_comes {start : b.Comp t} {k : El t → EStateM ε W (b.Comp t)} {d : Ask → Option Told}
    {f : El t → Ask → Option Told} (hstart : ∀ ask, Answers (use ask start) (d ask))
    (hk : ∀ u, Comes use (k u) (f u)) : Comes use (b.bind start k) (R.seq d f) := by
  have hmade : Comes use (pure start) d := by
    intro ask
    rw [pure_bind]
    exact hstart ask
  have h := R.bind_comes hmade hk
  rwa [pure_bind] at h

theorem finish_comes {finish : El t → EStateM ε W (El t)} {F : El t → Option (El t)}
    (hfinish : ∀ u, Answers (finish u) (F u)) (u : El t) :
    Comes use (b.pure <$> finish u) fun ask => F u >>= fun v => R.ret v ask := by
  rw [map_eq_pure_bind]
  exact Comes.after (hfinish u) R.pure_comes

/-- Bind steps, whatever is behind them. With nothing behind them they are a part of their own, and
what comes next may be bound to it. -/
theorem binds_come (ks : List (El t → EStateM ε W (b.Comp t)))
    (hks : ∀ k ∈ ks, (Step.bind k).Settled use) :
    ∃ F : (El t → Ask → Option Told) → El t → Ask → Option Told,
      (∀ {next G}, (∀ u, Comes use (next u) (G u)) →
        ∀ u, Comes use ((ks.map Step.bind).foldr Step.before next u) (F G u)) ∧
      ∀ G u, R.seq (F R.ret u) G = F G u := by
  induction ks with
  | nil => exact ⟨id, fun hnext => hnext, fun G u => R.seq_ret u G⟩
  | cons k ks ih =>
    obtain ⟨hk, hks⟩ := List.forall_mem_cons.mp hks
    obtain ⟨K, hK⟩ := hk
    obtain ⟨F, hF, hseq⟩ := ih hks
    refine ⟨fun G u => R.seq (fun ask => K (u, ask)) (F G), fun hnext u => ?_, fun G u => ?_⟩
    · exact R.bind_comes (fun ask => hK (u, ask)) (hF hnext)
    · rw [R.seq_assoc]
      exact congrArg (R.seq _) (funext (hseq G))

/-- Steps of both sorts, whatever is behind them. -/
theorem steps_come (steps : List (Step b t)) (hsteps : ∀ step ∈ steps, step.Settled use)
    {next : El t → EStateM ε W (b.Comp t)} {G : El t → Ask → Option Told}
    (hnext : ∀ u, Comes use (next u) (G u)) :
    ∃ F : El t → Ask → Option Told, ∀ u, Comes use (steps.foldr Step.before next u) (F u) := by
  induction steps with
  | nil => exact ⟨G, hnext⟩
  | cons step steps ih =>
    obtain ⟨hstep, hsteps⟩ := List.forall_mem_cons.mp hsteps
    obtain ⟨F, hF⟩ := ih hsteps
    cases step with
    | bind k =>
      obtain ⟨K, hK⟩ := hstep
      exact ⟨_, fun u => R.bind_comes (fun ask => hK (u, ask)) hF⟩
    | yield merges projection =>
      obtain ⟨P, hP⟩ := hstep
      have hfront (u v : El t) : Comes use (do
            let rest ← steps.foldr Step.before next u
            return b.prepend merges v rest) (R.front merges v (F u)) := by
        rw [← map_eq_pure_bind]
        exact R.prepend_comes merges v (hF u)
      exact ⟨_, fun u => Comes.after (hP u) (hfront u)⟩

/-- Where computations can be read, sequencers can be split. -/
theorem splits [Reports (EStateM ε W)] (hsafe : Cancellable.ReportsSafely ε W) :
    Sequencer.Splits use := by
  intro front back start finish hfront hback hstart hfinish ask
  obtain ⟨S, hS⟩ := hstart
  obtain ⟨Q, hQ⟩ := hfinish
  obtain ⟨F, hF, hseq⟩ := R.binds_come front hfront
  obtain ⟨G, hG⟩ := R.steps_come back.steps hback (R.finish_comes hQ)
  have hwhole : Comes use (((Sequencer.ofBinds front).append back).build start finish)
      (R.seq S (F G)) := by
    refine Comes.after (hsafe.answers _) fun _ => R.start_comes hS fun u => ?_
    have hcontinuation : ((Sequencer.ofBinds front).append back).continuation finish =
        (front.map Step.bind).foldr Step.before (back.continuation finish) := by
      rw [Sequencer.continuation, Sequencer.append, Sequencer.steps_ofBinds, List.foldr_append]
      rfl
    rw [hcontinuation]
    exact hF hG u
  -- the second part reports before it binds what the first part made
  have hparts : Comes use (do
        let first ← (Sequencer.ofBinds front).build start pure
        back.build first finish) (R.seq (R.seq S (F R.ret)) G) := by
    have hfirst : Comes use (do
          let first ← (Sequencer.ofBinds front).build start pure
          report (.building b.name back.length)
          return first) (R.seq S (F R.ret)) := by
      rw [Sequencer.build_ofBinds, bind_assoc]
      refine Comes.after (d := fun _ => R.seq S (F R.ret)) (hsafe.answers _) fun _ => ?_
      refine R.late (hsafe.answers _) (R.start_comes hS fun u => ?_)
      rw [Sequencer.continuation, Sequencer.steps_ofBinds]
      refine hF (fun v => ?_) u
      rw [map_pure]
      exact R.pure_comes v
    have hback := R.bind_comes hfirst hG
    simp only [bind_assoc, pure_bind] at hback
    exact hback
  have hsame : R.seq (R.seq S (F R.ret)) G = R.seq S (F G) := by
    rw [R.seq_assoc]
    exact congrArg (R.seq S) (funext (hseq G))
  intro w
  refine (hwhole ask w).trans ?_
  rw [← hsame, ← hparts ask w, bind_assoc]

end Reading

end

/-! ## Computations that are looked at -/

section
variable {b : Builder (EStateM ε W) El}

theorem comes_iff_answers {x : EStateM ε W (b.Comp t)} {d : Unit → Option (b.Comp t)} :
    Comes (fun (_ : Unit) c => return c) x d ↔ Answers x (d ()) := by
  have hpure : (x >>= fun c => pure c) = x := bind_pure x
  refine ⟨fun h => hpure ▸ h (), fun h ask => ?_⟩
  rw [hpure]
  exact h

/-- Computations that need no run: `go` says what a bind comes to. -/
def Reading.plain (go : b.Comp t → (El t → Option (b.Comp t)) → Option (b.Comp t))
    (go_answers : ∀ c {k : El t → EStateM ε W (b.Comp t)} {F : El t → Option (b.Comp t)},
      (∀ u, Answers (k u) (F u)) → Answers (b.bind c k) (go c F))
    (go_pure : ∀ u F, go (b.pure u) F = F u)
    (go_assoc : ∀ c F G, (go c F >>= fun d => go d G) = go c fun u => F u >>= fun d => go d G) :
    Reading fun (_ : Unit) (c : b.Comp t) => return c where
  ret u _ := some (b.pure u)
  seq d f ask := d ask >>= fun c => go c (f · ask)
  front merges v d ask := b.prepend merges v <$> d ask
  seq_ret u f := funext fun ask => go_pure u (f · ask)
  seq_assoc d f g := by
    funext ask
    rw [bind_assoc]
    exact bind_congr fun c => go_assoc c (f · ask) (g · ask)
  pure_comes u := comes_iff_answers.mpr (.pure (b.pure u))
  bind_comes {x k d f} hx hk := by
    refine comes_iff_answers.mpr ((comes_iff_answers.mp hx).bind fun c => ?_)
    exact go_answers c fun u => comes_iff_answers.mp (hk u)
  prepend_comes merges v {x d} hx := by
    refine comes_iff_answers.mpr ?_
    rw [map_eq_pure_bind, map_eq_pure_bind]
    exact (comes_iff_answers.mp hx).bind fun c => .pure _
  late {c k act d} hact h := by
    refine comes_iff_answers.mpr ?_
    have hmade := (comes_iff_answers.mp h).bind fun c => hact.bind fun _ => Answers.pure c
    simpa using hmade

end

/-- An absent value stays absent. -/
def Reading.optional : Reading (b := Builder.optional (EStateM ε W) El) (t := t)
    fun (_ : Unit) o => return o :=
  plain (fun (o : Option (El t)) F => o.elim (some none) F)
    (fun o {k F} hk => by
      cases o with
      | none => exact .pure none
      | some u => exact hk u)
    (fun _ _ => rfl)
    (fun o F G => by cases o <;> rfl)

/-- The values in their order. -/
def Reading.sequence : Reading (b := Builder.sequence (EStateM ε W) El) (t := t)
    fun (_ : Unit) s => return s :=
  plain (fun (s : Sequence (El t)) F => s.flatMap F) (fun s {_ _} hk => Answers.flatMap hk s)
    (fun u F => Sequence.flatMap_singleton u F) Sequence.flatMap_flatMap

/-! ## Computations that are run -/

variable [∀ t, Inhabited (El t)]

/-- The value and the state, for every state at the start. -/
def Reading.state {S : Type} : Reading (b := Builder.state (EStateM ε W) S El) (t := t)
    fun s c => State.run c s where
  ret u s := some (u, s)
  seq d f s := d s >>= fun p => f p.1 p.2
  front merges := (Builder.not_merges_state merges).elim
  seq_ret _ _ := rfl
  seq_assoc d f g := funext fun s => bind_assoc (d s) _ _
  pure_comes u s := .pure (u, s)
  bind_comes {x k d f} hx hk s := by
    have hrun := Answers.bind (hx s) fun p => hk p.1 p.2
    simp only [bind_assoc] at hrun ⊢
    exact hrun
  prepend_comes merges := (Builder.not_merges_state merges).elim
  late hact h := Comes.late rfl hact h

variable [DecidableEq ι] [Reports (EStateM ε W)]

namespace Cancellable

/-- What a bind does with the ending of its bound task, if nobody cancels. -/
def onwardUncancelled (k : El t → EStateM ε W (Cancellable (EStateM ε W) (El t)))
    (ending : Ending (El t)) : EStateM ε W (Ending (El t)) := do
  if ending.cancelled then stop .inner (carry ending.value)
  else (← k ending.value).runUncancelled

theorem onward_answers (hsafe : ReportsSafely ε W)
    {k : El t → EStateM ε W (Cancellable (EStateM ε W) (El t))} {f : El t → Option (Ending (El t))}
    (hk : ∀ u, Answers (k u >>= fun next => next.runUncancelled) (f u)) (ending : Ending (El t)) :
    Answers (onwardUncancelled k ending)
      (if ending.cancelled then some ending else f ending.value) := by
  obtain ⟨u, cancelled⟩ := ending
  cases cancelled with
  | true =>
    show Answers (stop .inner (carry u : El t)) _
    rw [carry_self]
    exact (hsafe.answers _).bind fun _ => .pure (Ending.mk u true)
  | false => exact hk u

end Cancellable

/-- The ending. Over one type a task that cancels itself keeps its value through all binds. -/
def Reading.cancellable (hsafe : Cancellable.ReportsSafely ε W) :
    Reading (b := Builder.cancellable (EStateM ε W) El) (t := t)
      fun (_ : Unit) c => Cancellable.runUncancelled c where
  ret u _ := some ⟨u, false⟩
  seq d f ask := d ask >>= fun ending =>
    if ending.cancelled then some ending else f ending.value ask
  front merges := (Builder.not_merges_cancellable merges).elim
  seq_ret _ _ := rfl
  seq_assoc d f g := by
    funext ask
    rw [bind_assoc]
    refine bind_congr fun ending => ?_
    cases hcut : ending.cancelled with
    | true => simp [hcut]
    | false => simp
  pure_comes u ask := .pure (Ending.mk u false)
  bind_comes {x k d f} hx hk ask := by
    have hrun := Answers.bind (hx ask)
      (F := fun ending => if ending.cancelled then some ending else f ending.value ask)
      (Cancellable.onward_answers hsafe fun u => hk u ask)
    -- a run of a bind that nobody cancels is a run of its bound task, and then onward
    rw [bind_assoc] at hrun ⊢
    exact hrun
  prepend_comes merges := (Builder.not_merges_cancellable merges).elim
  late hact h := Comes.late rfl hact h

/-- **Steps may be divided.** Let all closures be settled, and let nothing that the library reports
panic. Bind steps followed by any steps, built between a start and a finish, make the same
computation as the other steps built behind what the bind steps alone make of the start: the same
optional value, the same sequence, from every state the same value and state, and the same ending of
a task that nobody cancels, also if it cancels itself; or both panic. -/
theorem Sequencer.split_anywhere (hsafe : Cancellable.ReportsSafely ε W) (S : Type) (t : ι) :
    Splits (b := Builder.optional (EStateM ε W) El) (t := t) (fun (_ : Unit) o => return o) ∧
    Splits (b := Builder.sequence (EStateM ε W) El) (t := t) (fun (_ : Unit) s => return s) ∧
    Splits (b := Builder.state (EStateM ε W) S El) (t := t) (fun s c => State.run c s) ∧
    Splits (b := Builder.cancellable (EStateM ε W) El) (t := t)
      fun (_ : Unit) c => Cancellable.runUncancelled c :=
  ⟨Reading.optional.splits hsafe, Reading.sequence.splits hsafe, Reading.state.splits hsafe,
    (Reading.cancellable hsafe).splits hsafe⟩

section
open Script

/-- Counts, and answers three times the value. -/
def tripled (u : Int64) : Act Int64 := do
  let _ ← Act.tick "tripled"
  return 3 * u

theorem scripts_merge : (Builder.sequence Act Script.El).Merges :=
  Builder.sequence_merges Act Script.El

/-- Records three times the value before it goes on with the halves. -/
def recordedHalves : Sequencer (Builder.sequence Act Script.El) .int :=
  ⟨[.yield scripts_merge tripled, .bind halves]⟩

/-- All steps in one sequencer. -/
def halvedAtOnce : Act (Sequence Int64) :=
  ((Sequencer.ofBinds [halves]).append recordedHalves).build four tripled >>= fun s => return s

/-- The first step in a sequencer of its own. -/
def halvedInTwo : Act (Sequence Int64) := do
  let first ← (Sequencer.ofBinds [halves] : Sequencer (Builder.sequence Act Script.El) .int).build
    four pure
  recordedHalves.build first tripled >>= fun s => return s

/-- A step that comes back cancelled with a seven. -/
def cutStep : Script.El .int → Act (Cancellable Act (Script.El .int)) :=
  fun _ => return Cancellable.sevenCut

/-- A step that is not reached behind it. -/
def behindCut : Sequencer (Builder.cancellable Act Script.El) .int :=
  ⟨[.bind fun _ => return Cancellable.ofValue 0]⟩

/-- A task that is cut short in the first of two sequencers. -/
def cutInTwo : Act (Ending Int64) := do
  let first ← (Sequencer.ofBinds [cutStep] :
    Sequencer (Builder.cancellable Act Script.El) .int).build (Cancellable.ofValue 1) pure
  let c ← behindCut.build first tripled
  Cancellable.runUncancelled c

theorem settled_tripled : Settled tripled := ⟨fun u => some (3 * u), fun _ _ => rfl⟩

theorem settled_step_halves :
    (Step.bind halves : Step (Builder.sequence Act Script.El) .int).Settled
      fun (_ : Unit) s => return s := by
  obtain ⟨F, hF⟩ := settled_halves
  refine ⟨fun p => F p.1, fun p => ?_⟩
  show Answers (halves p.1 >>= fun s => pure s) (F p.1)
  rw [bind_pure]
  exact hF p.1

/-- Halves and recorded halves are the same at once and in two; and a task keeps its value that
cancels itself in the first part. -/
theorem halves_split : Cancellable.ReportsSafely Fault Session ∧
    SameAnswers halvedAtOnce halvedInTwo ∧
    answer? (halvedInTwo Session.fresh) = some ⟨[6, 3, 6, 12, 6, 12]⟩ ∧
    answer? (cutInTwo Session.fresh) = some ⟨7, true⟩ := by
  have hsafe : Cancellable.ReportsSafely Fault Session := fun _ _ => ⟨_, rfl⟩
  obtain ⟨-, hsequence, -, hcancellable⟩ :=
    @Sequencer.split_anywhere Fault Session Ty Script.El _ _ _ hsafe Int64 .int
  have hhalves : SameAnswers halvedAtOnce halvedInTwo := by
    refine hsequence [halves] recordedHalves four tripled ?_ ?_ ?_ settled_tripled ()
    · exact List.forall_mem_singleton.mpr settled_step_halves
    · exact List.forall_mem_cons.mpr
        ⟨settled_tripled, List.forall_mem_singleton.mpr settled_step_halves⟩
    · exact ⟨fun _ => some four, fun _ _ => rfl⟩
  have hcut := hcancellable [cutStep] behindCut (Cancellable.ofValue 1) tripled
    (List.forall_mem_singleton.mpr ⟨fun _ => some ⟨7, true⟩, fun _ _ => rfl⟩)
    (List.forall_mem_singleton.mpr ⟨fun _ => some ⟨0, false⟩, fun _ _ => rfl⟩)
    ⟨fun _ => some ⟨1, false⟩, fun _ _ => rfl⟩ settled_tripled () Session.fresh
  have honce : answer? (halvedAtOnce Session.fresh) = some ⟨[6, 3, 6, 12, 6, 12]⟩ := by
    decide +kernel
  exact ⟨hsafe, hhalves, (hhalves Session.fresh).symm.trans honce, hcut.symm.trans rfl⟩

end

end Workflow
