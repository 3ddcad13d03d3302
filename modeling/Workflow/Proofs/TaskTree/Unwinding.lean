import Workflow.Proofs.Chronicle.Adds
import Workflow.Proofs.TaskTree
import Workflow.Script.Kind
import Workflow.Script.Session

/-!
# Unwinding: what a cancelled run still does

A run is cancelled by the first event that says so: a checkpoint's look that is answered `true`, or a
leaf's own function that reports cancellation. Up to then the record is `Calm`. After it, the
checkpoint's own notice apart, the run only gives the bound tasks back: every bind that waits for
one at that moment gets it, reports `inner` and ends, from the innermost outwards (`unwinding`). A
bind that has passed control on does not wait any more and says nothing.

`Course events flag` describes both shapes of a record, and `build_accounted` shows that the record
of every task tree has one of them. The result is `cancelled_iff_unwinds`.
-/

namespace Workflow

variable {ε W α β : Type}

namespace Event

/-- Whether the event says that the run is cancelled. -/
def cancels : Event ε W → Bool
  | looked answer => answer
  | ran _ cancelled => cancelled
  | _ => false

/-- Whether the event is the notice of a checkpoint that observed a cancellation. -/
def observes : Event ε W → Bool
  | noticed (.observed _) => true
  | _ => false

def opens : Event ε W → Bool
  | opened => true
  | _ => false

def closes : Event ε W → Bool
  | closed => true
  | _ => false

end Event

/-- The number of binds that wait for their bound task at the end of a record. -/
def waiting (events : List (Event ε W)) : Nat :=
  events.countP Event.opens - events.countP Event.closes

/-- `n` waiting binds come to their ends, the innermost first. -/
def unwinding : Nat → List (Event ε W)
  | 0 => []
  | n + 1 => .closed :: .noticed (.observed .inner) :: unwinding n

/-- Nothing says that the run is cancelled, and no checkpoint has observed it. -/
def Calm (events : List (Event ε W)) : Prop :=
  ∀ event ∈ events, event.cancels = false ∧ event.observes = false

/-- An event that cancels a run, and the notice that goes with it. -/
inductive Cuts : Event ε W → List (Event ε W) → Prop where
  | look {at_ : Checkpoint} (h : at_ ≠ .inner) : Cuts (.looked true) [.noticed (.observed at_)]
  | leaf {call : Call ε W} : Cuts (.ran call true) []

/-- Calm, and every bound task that was started has come back. -/
structure Steady (events : List (Event ε W)) : Prop where
  calm : Calm events
  balanced : events.countP Event.opens = events.countP Event.closes

/-- The record of a run that ended with the given flag. -/
inductive Course : List (Event ε W) → Bool → Prop where
  | steady {events : List (Event ε W)} (h : Steady events) : Course events false
  | cut {before own : List (Event ε W)} {event : Event ε W} {n : Nat} (calm : Calm before)
      (open_ : before.countP Event.opens = before.countP Event.closes + n) (h : Cuts event own) :
    Course (before ++ event :: (own ++ unwinding n)) true

theorem Calm.append {e₁ e₂ : List (Event ε W)} (h₁ : Calm e₁) (h₂ : Calm e₂) :
    Calm (e₁ ++ e₂) := by
  intro event h
  rcases List.mem_append.mp h with h | h
  · exact h₁ event h
  · exact h₂ event h

theorem Calm.single {event : Event ε W} (hc : event.cancels = false)
    (ho : event.observes = false) : Calm [event] := by
  intro other h
  rw [List.mem_singleton.mp h]
  exact ⟨hc, ho⟩

theorem Steady.append {e₁ e₂ : List (Event ε W)} (h₁ : Steady e₁) (h₂ : Steady e₂) :
    Steady (e₁ ++ e₂) := by
  refine ⟨h₁.calm.append h₂.calm, ?_⟩
  rw [List.countP_append, List.countP_append, h₁.balanced, h₂.balanced]

theorem Steady.nil : Steady ([] : List (Event ε W)) := ⟨by simp [Calm], rfl⟩

theorem Steady.looked : Steady [(.looked false : Event ε W)] := ⟨.single rfl rfl, rfl⟩

theorem Steady.called (call : Call ε W) : Steady [.called call] := ⟨.single rfl rfl, rfl⟩

theorem Steady.building (builder : String) (steps : Nat) :
    Steady [(.noticed (.building builder steps) : Event ε W)] := ⟨.single rfl rfl, rfl⟩

theorem unwinding_succ (n : Nat) :
    (unwinding (n + 1) : List (Event ε W)) =
      unwinding n ++ [.closed, .noticed (.observed .inner)] := by
  induction n with
  | zero => rfl
  | succ n ih =>
    calc (unwinding (n + 2) : List (Event ε W))
        = .closed :: .noticed (.observed .inner) :: unwinding (n + 1) := rfl
      _ = .closed :: .noticed (.observed .inner) ::
            (unwinding n ++ [.closed, .noticed (.observed .inner)]) := by rw [ih]
      _ = unwinding (n + 1) ++ [.closed, .noticed (.observed .inner)] := rfl

namespace Course

variable {events before : List (Event ε W)} {flag : Bool}

theorem steady_of_not_cancelled (h : Course events false) : Steady events := by
  cases h with
  | steady h => exact h

/-- A cut at the very first event. -/
theorem at_once {own : List (Event ε W)} {event : Event ε W} (h : Cuts event own) :
    Course (event :: own) true := by
  have hcut := Course.cut (n := 0) Steady.nil.calm rfl h
  simpa [unwinding] using hcut

theorem prepend (hb : Steady before) (h : Course events flag) : Course (before ++ events) flag := by
  cases h with
  | steady h => exact .steady (hb.append h)
  | @cut middle own event n calm open_ h =>
    rw [← List.append_assoc]
    refine .cut (hb.calm.append calm) ?_ h
    rw [List.countP_append, List.countP_append, hb.balanced, open_]
    omega

/-- A bound task that came back as it should. -/
theorem enclosed (h : Course events false) : Steady (.opened :: (events ++ [.closed])) := by
  obtain ⟨calm, balanced⟩ := h.steady_of_not_cancelled
  refine ⟨(Calm.single rfl rfl).append (calm.append (.single rfl rfl)), ?_⟩
  rw [List.countP_cons, List.countP_cons, List.countP_append, List.countP_append, balanced]
  simp [Event.opens, Event.closes]

/-- A bound task that came back cancelled: its bind was waiting, and is the next to end. -/
theorem enclosed_cut (h : Course events true) :
    Course (.opened :: (events ++ [.closed, .noticed (.observed .inner)])) true := by
  cases h with
  | @cut middle own event n calm open_ h =>
    have hcut : Course ((.opened :: middle) ++ event :: (own ++ unwinding (n + 1))) true := by
      refine .cut ((Calm.single rfl rfl).append calm) ?_ h
      simp only [List.countP_cons, Event.opens, Event.closes, open_]
      simp
      omega
    rw [unwinding_succ] at hcut
    simpa using hcut

theorem flag_iff (h : Course events flag) :
    flag = true ↔ ∃ event ∈ events, event.cancels = true := by
  cases h with
  | steady h =>
    refine ⟨nofun, fun ⟨event, hmem, hc⟩ => ?_⟩
    rw [(h.calm event hmem).1] at hc
    exact hc
  | @cut before own event n calm open_ h =>
    refine ⟨fun _ => ⟨event, by simp, ?_⟩, fun _ => rfl⟩
    cases h <;> rfl

/-- After the event that cancels the run there is its own notice and the unwinding of the binds
that wait, and nothing else. -/
theorem unwinds (h : Course events true) : ∃ before event own,
    events = before ++ event :: (own ++ unwinding (waiting before)) ∧ Calm before ∧
      Cuts event own := by
  cases h with
  | @cut before own event n calm open_ h =>
    refine ⟨before, event, own, ?_, calm, h⟩
    have hn : waiting before = n := by unfold waiting; omega
    rw [hn]

end Course

/-! ## The records of acts and of tasks -/

/-- Runs of `x` leave a steady record, and results of which `P` holds. -/
abbrev Steadily (x : Chronicled ε W α) (P : α → Prop) : Prop :=
  Adds x fun events a => Steady events ∧ P a

/-- Runs of `x` leave a record that fits the flag they end with. -/
abbrev Courses (x : Chronicled ε W (Ending α)) : Prop :=
  Adds x fun events ending => Course events ending.cancelled

/-- Runs of `c` leave a record that fits the flag they end with. -/
def Cancellable.Accounted (c : Cancellable (Chronicled ε W) α) : Prop :=
  ∀ signal : Signal (EStateM ε W), Courses (c.run signal.chronicled)

namespace Steadily

variable {P : α → Prop} {Q : β → Prop} {x : Chronicled ε W α} {f : α → Chronicled ε W β}

theorem pure {a : α} (h : P a) : Steadily (Pure.pure a : Chronicled ε W α) P :=
  Adds.pure ⟨.nil, h⟩

theorem bind (h : Steadily x P) (hf : ∀ a, P a → Steadily (f a) Q) : Steadily (x >>= f) Q :=
  Adds.bind h fun a _ ⟨hs, ha⟩ => (hf a ha).mono fun _ _ ⟨hmore, hb⟩ => ⟨hs.append hmore, hb⟩

theorem map {g : α → β} (h : Steadily x P) (hg : ∀ a, P a → Q (g a)) : Steadily (g <$> x) Q :=
  Adds.map h fun a _ ⟨hs, ha⟩ => ⟨hs, hg a ha⟩

theorem calling (closure : Nat) (act : EStateM ε W α) :
    Steadily (Chronicled.calling closure act) fun _ => True :=
  Adds.calling fun _ _ _ => ⟨.called _, trivial⟩

theorem building [Reports (EStateM ε W)] (builder : String) (steps : Nat) :
    Steadily (report (.building builder steps) : Chronicled ε W Unit) fun _ => True :=
  Adds.report ⟨.building builder steps, trivial⟩

theorem courses {f : α → Chronicled ε W (Ending β)} (h : Steadily x P)
    (hf : ∀ a, P a → Courses (f a)) : Courses (x >>= f) :=
  Adds.bind h fun a _ ⟨hs, ha⟩ => (hf a ha).mono fun _ _ hcourse => hcourse.prepend hs

end Steadily

namespace Courses

variable [Reports (EStateM ε W)] {signal : Signal (EStateM ε W)}

/-- A checkpoint: the run is cut off there, or goes on steadily. -/
theorem checkpoint {at_ : Checkpoint} {a : α} {x : Chronicled ε W (Ending α)}
    (hat : at_ ≠ .inner) (h : Courses x) :
    Courses (signal.chronicled.poll >>= fun answer =>
      if answer then Cancellable.stop at_ a else x) := by
  refine Adds.checkpoint ?_ (h.mono fun more ending hcourse => hcourse.prepend .looked)
  refine (Adds.stop at_ a).mono fun more ending ⟨hmore, hflag⟩ => ?_
  rw [hmore, hflag]
  exact .at_once (.look hat)

/-- A bound task: its bind ends with it if it comes back cancelled, and goes on if not. -/
theorem bound {c : Cancellable (Chronicled ε W) α} (h : c.Accounted) {a : α → β}
    {f : Ending α → Chronicled ε W (Ending β)} (hf : ∀ ending, Courses (f ending)) :
    Courses (c.bound.run signal.chronicled >>= fun ending =>
      if ending.cancelled then Cancellable.stop .inner (a ending.value) else f ending) := by
  have hrun : Adds (c.bound.run signal.chronicled) fun events ending => ∃ inside,
      events = .opened :: (inside ++ [.closed]) ∧ Course inside ending.cancelled := by
    refine (Adds.note (P := fun events _ => events = [.opened]) rfl).bind fun _ opening ho => ?_
    refine (h signal).bind fun ending inside hcourse => ?_
    refine (Adds.note (P := fun events _ => events = [.closed]) rfl).bind fun _ closing hc => ?_
    exact .pure ⟨inside, by simp [ho, hc], hcourse⟩
  refine hrun.bind fun ending events hbound => ?_
  obtain ⟨inside, rfl, hcourse⟩ := hbound
  obtain ⟨value, cancelled⟩ := ending
  cases cancelled with
  | true =>
    refine (Adds.stop _ _).mono fun more ending ⟨hmore, hflag⟩ => ?_
    rw [hmore, hflag]
    simpa using hcourse.enclosed_cut
  | false => exact (hf _).mono fun more ending hmore => hmore.prepend hcourse.enclosed

end Courses

namespace Cancellable.Accounted

theorem ofValue (a : α) : (Cancellable.ofValue a : Cancellable (Chronicled ε W) α).Accounted :=
  fun _ => .pure (.steady .nil)

theorem delay (closure : Nat) (work : EStateM ε W α) :
    (Cancellable.delay (Chronicled.calling closure work)).Accounted :=
  fun _ => (Steadily.calling closure work).courses fun _ _ => .pure (.steady .nil)

theorem leaf (closure : Nat) (f : Signal (EStateM ε W) → EStateM ε W (Ending α)) :
    (Cancellable.leaf closure f).Accounted := by
  intro signal
  rw [run_leaf]
  refine Adds.performing fun _ _ ending => ?_
  obtain ⟨value, cancelled⟩ := ending
  cases cancelled with
  | true => exact .at_once .leaf
  | false => exact .steady ⟨.single rfl rfl, rfl⟩

variable [Reports (EStateM ε W)] {ι : Type} [DecidableEq ι] {El : ι → Type}
  [∀ t, Inhabited (El t)] {s t : ι}

theorem flatMap {c : Cancellable (Chronicled ε W) (El s)}
    {k : El s → Chronicled ε W (Cancellable (Chronicled ε W) (El t))} (h : c.Accounted)
    (hk : ∀ u, Steadily (k u) Accounted) : (c.bound.flatMap k).Accounted := by
  intro signal
  rw [run_flatMap]
  refine Courses.checkpoint (by decide) (Courses.bound h fun ending => ?_)
  refine Courses.checkpoint (by decide) ((hk ending.value).courses fun next hnext => ?_)
  exact Courses.checkpoint (by decide) (hnext signal)

end Cancellable.Accounted

/-! ## The records of task trees -/

namespace TaskTree

open Cancellable

variable [Reports (EStateM ε W)] {ι : Type} [DecidableEq ι] {El : ι → Type}
  [∀ t, Inhabited (El t)] {s t : ι}

theorem continuation_accounted {κ : Type}
    {next : κ → Chronicled ε W (Cancellable (Chronicled ε W) (El t))}
    (hnext : ∀ x, Steadily (next x) Accounted) (closure : Nat)
    (finish : El t → EStateM ε W (El t)) (steps : List (Nat × (El t → EStateM ε W κ))) (u : El t) :
    Steadily ((⟨steps.map (record .chronicled next)⟩ :
      Sequencer (Builder.cancellable _ El) t).continuation
        (fun u => Setting.chronicled.call closure (finish u)) u) Accounted := by
  induction steps generalizing u with
  | nil => exact (Steadily.calling closure (finish u)).map fun v _ => .ofValue v
  | cons step steps ih =>
    refine Steadily.bind (P := fun c => ∃ d : Cancellable (Chronicled ε W) (El t),
      d.Accounted ∧ c = d.bound) ?_ ?_
    · refine (Steadily.calling step.1 (step.2 u)).bind fun x _ => ?_
      exact (hnext x).map fun c hc => ⟨c, hc, rfl⟩
    · intro c hc
      obtain ⟨d, hd, rfl⟩ := hc
      exact .pure (hd.flatMap ih)

theorem build_accounted (tree : TaskTree ε W El t) :
    Steadily (tree.build .chronicled) Accounted := by
  induction tree with
  | pure u => exact .pure (.ofValue u)
  | zero => exact .pure (.ofValue default)
  | delay closure work => exact .pure (.delay closure work)
  | own closure f => exact .pure (.leaf closure f)
  | bind c closure k next ihc ihnext =>
    refine ihc.bind fun c hc => .pure (hc.flatMap fun u => ?_)
    exact (Steadily.calling closure (k u)).bind fun x _ => ihnext x
  | map c closure f ihc =>
    refine ihc.bind fun c hc => .pure (hc.flatMap fun u => ?_)
    exact (Steadily.calling closure (f u)).map fun v _ => .ofValue v
  | andThen first second ih₁ ih₂ =>
    exact ih₁.bind fun c hc => ih₂.bind fun d hd => .pure (hc.flatMap fun _ => .pure hd)
  | sequencer steps next start closure finish ihnext ihstart =>
    refine ihstart.bind fun c hc => ?_
    rw [build_recorded]
    refine (Steadily.building _ _).bind fun _ _ => .pure ?_
    exact hc.flatMap (continuation_accounted ihnext closure finish steps)

/-- **Cancellation is neither invented nor lost, and it stops everything.** Whenever a task that was
made of a tree is run and does not panic, (a) its flag is set exactly if a look was answered `true`
or a leaf reported cancellation. (b) Up to the first such event no checkpoint has observed a
cancellation; after it the record holds the checkpoint's own notice, if it was a look, and then, for
each bind that is waiting for its bound task, the return of that task and one `inner` notice, and
nothing more. -/
theorem cancelled_iff_unwinds (tree : TaskTree ε W El t) (signal : Signal (EStateM ε W))
    {w₀ w₁ w w' : W} {c : Cancellable (EStateM ε W) (El t)} {ending : Ending (El t)}
    (hc : tree.build .plain w₀ = .ok c w₁) (h : c.run signal w = .ok ending w') :
    ∃ c' built events, tree.build .chronicled ⟨w₀, []⟩ = .ok c' ⟨w₁, built⟩ ∧
      c'.run signal.chronicled ⟨w, []⟩ = .ok ending ⟨w', events⟩ ∧
      (ending.cancelled = true ↔ ∃ event ∈ events, event.cancels = true) ∧
      (ending.cancelled = false → Calm events) ∧
      (ending.cancelled = true → ∃ before event own,
        events = before ++ event :: (own ++ unwinding (waiting before)) ∧ Calm before ∧
          Cuts event own) := by
  obtain ⟨c', built, hc', htwins⟩ := tree.build_shadows.exists_record hc []
  obtain ⟨_, -, -, haccounted⟩ := tree.build_accounted _ _ _ hc'
  obtain ⟨_, events, hrun, rfl⟩ := (htwins signal).exists_record h []
  obtain ⟨new, hnew, hcourse⟩ := haccounted signal _ _ _ hrun
  have hevents : events = new := by simpa using hnew
  subst hevents
  refine ⟨c', built, events, hc', hrun, hcourse.flag_iff, fun hflag => ?_, fun hflag => ?_⟩
  · rw [hflag] at hcourse
    exact hcourse.steady_of_not_cancelled.calm
  · rw [hflag] at hcourse
    exact hcourse.unwinds

/-! ## A run that is cancelled inside -/

section
open Script

/-- The inner bind's continuation cancels the signal, and the outer bind waits for the inner one. -/
def cancelledInside : TaskTree Fault Session Script.El .bool :=
  .bind (.bind (.pure true) 0 (fun u => do Act.cancel "stop"; return u) .pure) 1
    (fun u => return u) .pure

/-- A fresh session in which the signal exists. -/
def armed : Session :=
  { Session.fresh with signals := Signal.Registry.empty.bind "stop" (.flag false) }

theorem cancelledInside_unwinds : ∃ c c' ending w' built events,
    cancelledInside.build .plain armed = .ok c armed ∧
    c.run ⟨Act.poll "stop"⟩ armed = .ok ending w' ∧ ending.cancelled = true ∧
    cancelledInside.build .chronicled ⟨armed, []⟩ = .ok c' ⟨armed, built⟩ ∧
    c'.run (Signal.chronicled ⟨Act.poll "stop"⟩) ⟨armed, []⟩ = .ok ending ⟨w', events⟩ ∧
    ∃ before event own, events = before ++ event :: (own ++ unwinding (waiting before)) ∧
      Calm before ∧ Cuts event own := by
  have hplain : cancelledInside.build .plain armed = .ok _ armed := rfl
  obtain ⟨c', built, events, hbuild, hrun, -, -, hunwinds⟩ :=
    cancelledInside.cancelled_iff_unwinds ⟨Act.poll "stop"⟩ hplain (w := armed) rfl
  exact ⟨_, c', _, _, built, events, rfl, rfl, rfl, hbuild, hrun, hunwinds rfl⟩

end

end TaskTree

end Workflow
