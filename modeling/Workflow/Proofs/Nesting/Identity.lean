import Workflow.Proofs.Chronicle.Abreast
import Workflow.Proofs.Chronicle.Leads
import Workflow.Proofs.Nesting.Regrouped

/-!
# Binding a plain value, and binding to plain values

Without cancellation `bind (pure a) f` is the call `f a`, and `bind c pure` is `c`. Under a signal
the bind still looks before the bound task, before the continuation and before the task that comes
of it, and what it does depends on what these looks find. `f`, the tasks, and even asking the signal
may do anything to the world, so no answer says anything about the next one.

`LeftIdentity` says what a run of `bind (pure a) f` does at each of its looks, and `RightIdentity`
the same of `bind c pure`; both say it with `Leads`, event by event and from world to world. Of the
second, `Keeps` sums up what every run comes to.

Where all looks find nothing, all that is left of them is what asking does to the world. If nobody
sees that up to a relation `R` of worlds, the two sides of both laws end alike up to `R`
(`SilentIdentity`).
-/

namespace Workflow

open Chronicled

variable {ε W α : Type}

namespace Cancellable

variable {ι : Type} [DecidableEq ι] {El : ι → Type} [∀ t, Inhabited (El t)] {s t : ι}

/-- The bind of a plain value. -/
def bindValue {m : Type → Type} [Monad m] [Reports m] (a : El s)
    (f : El s → m (Cancellable m (El t))) : Cancellable m (El t) :=
  (ofValue a).flatMap f

/-- The bind to plain values. -/
def bindPure {m : Type → Type} [Monad m] [Reports m] (c : Cancellable m (El t)) :
    Cancellable m (El t) :=
  c.flatMap fun u => return ofValue u

variable [Reports (EStateM ε W)]

/-- A closure that answers a task, with a record of its calls and of the task's runs. -/
def recorded (f : El s → EStateM ε W (Cancellable (EStateM ε W) (El t))) (u : El s) :
    Chronicled ε W (Cancellable (Chronicled ε W) (El t)) :=
  (Cancellable.sealed · 0) <$> calling 0 (f u)

/-! ## Binding a plain value -/

section
variable (signal : Signal (EStateM ε W)) (a : El s)
  (f : El s → EStateM ε W (Cancellable (EStateM ε W) (El t)))

/-- From `w`, a run of `bind (pure a) f` shows `events` up to `w'` and goes on there as `y`. -/
def LeftLeads (w : W) (events : List (Event ε W)) (w' : W) (y' : Chronicled ε W (Ending (El t)))
    (y : EStateM ε W (Ending (El t))) : Prop :=
  Leads ((bindValue a (recorded f)).run signal.chronicled) ((bindValue a f).run signal) w events w'
    y' y

/-- What a run of `bind (pure a) f` does, by what its looks find. -/
structure LeftIdentity : Prop where
  /-- Making it calls nothing. -/
  made : (Builder.cancellable (EStateM ε W) El).bind (.ofValue a) f = pure (bindValue a f)
  /-- The first look finds that cancellation was requested. -/
  atFirst {w w₁ : W} (h₁ : signal.poll w = .ok true w₁) :
    LeftLeads signal a f w [.looked true] w₁ (stop .beforeBind default) (stop .beforeBind default)
  /-- The second look is the first one that finds it: `f` is not called. -/
  atSecond {w w₁ w₂ : W} (h₁ : signal.poll w = .ok false w₁) (h₂ : signal.poll w₁ = .ok true w₂) :
    LeftLeads signal a f w [.looked false, .looked true] w₂
      (stop .beforeContinuation (carry a)) (stop .beforeContinuation (carry a))
  /-- The third one is: `f` has been called, but its task is not run. -/
  atThird {w w₁ w₂ w₃ w₄ : W} {next : Cancellable (EStateM ε W) (El t)}
    (h₁ : signal.poll w = .ok false w₁) (h₂ : signal.poll w₁ = .ok false w₂)
    (hf : f a w₂ = .ok next w₃) (h₃ : signal.poll w₃ = .ok true w₄) :
    LeftLeads signal a f w
      [.looked false, .looked false, .called ⟨0, w₂, w₃, none⟩, .looked true] w₄
      (stop .beforeNext (carry a)) (stop .beforeNext (carry a))
  /-- `f` panics. -/
  panics {w w₁ w₂ w₃ : W} {e : ε} (h₁ : signal.poll w = .ok false w₁)
    (h₂ : signal.poll w₁ = .ok false w₂) (hf : f a w₂ = .error e w₃) :
    LeftLeads signal a f w [.looked false, .looked false, .called ⟨0, w₂, w₃, some e⟩] w₃
      (throw e) (throw e)
  /-- No look finds it: what is left to be done is the task that `f` answered. -/
  through {w w₁ w₂ w₃ w₄ : W} {next : Cancellable (EStateM ε W) (El t)}
    (h₁ : signal.poll w = .ok false w₁) (h₂ : signal.poll w₁ = .ok false w₂)
    (hf : f a w₂ = .ok next w₃) (h₃ : signal.poll w₃ = .ok false w₄) :
    LeftLeads signal a f w
      [.looked false, .looked false, .called ⟨0, w₂, w₃, none⟩, .looked false] w₄
      ((next.sealed 0).run signal.chronicled) (next.run signal)

theorem run_bindValue {m : Type → Type} [Monad m] [LawfulMonad m] [Reports m] (a : El s)
    (f : El s → m (Cancellable m (El t))) (signal : Signal m) :
    (bindValue a f).run signal = (do
      if ← signal.poll then stop .beforeBind default
      else if ← signal.poll then stop .beforeContinuation (carry a)
      else
        let next ← f a
        if ← signal.poll then stop .beforeNext (carry a) else next.run signal) := by
  rw [bindValue, run_flatMap]
  simp only [run_ofValue, pure_bind]
  rfl

theorem leftIdentity : LeftIdentity signal a f := by
  -- the record is kept by `f` and by its task, and the looks stand where they stood
  have hrun' := run_bindValue a (recorded f) signal.chronicled
  simp only [recorded, map_eq_pure_bind, bind_assoc, pure_bind] at hrun'
  constructor
  case made => rfl
  case atFirst =>
    intro w w₁ h₁
    rw [LeftLeads, hrun', run_bindValue]
    exact .look h₁ (.here _ _ _)
  case atSecond =>
    intro w w₁ w₂ h₁ h₂
    rw [LeftLeads, hrun', run_bindValue]
    exact .look h₁ (.look h₂ (.here _ _ _))
  case atThird =>
    intro w w₁ w₂ w₃ w₄ next h₁ h₂ hf h₃
    rw [LeftLeads, hrun', run_bindValue]
    refine .look h₁ (.look h₂ (.act hf (calling_of_ok hf 0) ?_))
    exact .look h₃ (.here _ _ _)
  case panics =>
    intro w w₁ w₂ w₃ e h₁ h₂ hf
    rw [LeftLeads, hrun', run_bindValue]
    exact .look h₁ (.look h₂ (.panics hf (calling_of_error hf 0)))
  case through =>
    intro w w₁ w₂ w₃ w₄ next h₁ h₂ hf h₃
    rw [LeftLeads, hrun', run_bindValue]
    refine .look h₁ (.look h₂ (.act hf (calling_of_ok hf 0) ?_))
    exact .look h₃ (.here _ _ _)

end

/-! ## Binding to plain values -/

/-- What is kept by a bind to plain values: nothing, if it ends before `c` is run, and otherwise the
value of `c`, with a flag that is set by `c` or by a look behind it. -/
inductive Keeps (signal : Signal (EStateM ε W)) (c : Cancellable (EStateM ε W) (El t)) :
    List (Event ε W) → Ending (El t) → Prop where
  | nothing : Keeps signal c [.looked true, .noticed (.observed .beforeBind)] ⟨default, true⟩
  | value {w w' : W} {ending ending' : Ending (El t)} {behind : List (Event ε W)}
    (hrun : c.run signal w = .ok ending w') (hvalue : ending'.value = ending.value)
    (hflag : ending'.cancelled = true ↔ ending.cancelled = true ∨ true ∈ looks behind)
    (hcalls : calls behind = []) :
    Keeps signal c (.looked false :: .ran ⟨0, w, w', none⟩ ending.cancelled :: behind) ending'

section
variable (signal : Signal (EStateM ε W)) (c : Cancellable (EStateM ε W) (El t))

/-- From `w`, a run of `bind c pure` shows `events` up to `w'` and goes on there as `y`. -/
def RightLeads (w : W) (events : List (Event ε W)) (w' : W) (y' : Chronicled ε W (Ending (El t)))
    (y : EStateM ε W (Ending (El t))) : Prop :=
  Leads ((bindPure (c.sealed 0)).run signal.chronicled) ((bindPure c).run signal) w events w' y' y

/-- What a run of `bind c pure` does, by what its looks find. -/
structure RightIdentity : Prop where
  /-- Making it calls nothing. -/
  made : (Builder.cancellable (EStateM ε W) El).bind c (fun u => return .ofValue u) =
    pure (bindPure c)
  /-- The first look finds that cancellation was requested: `c` is not run. -/
  atFirst {w w₁ : W} (h₁ : signal.poll w = .ok true w₁) :
    RightLeads signal c w [.looked true] w₁ (stop .beforeBind default) (stop .beforeBind default)
  /-- `c` panics. -/
  panics {w w₁ w₂ : W} {e : ε} (h₁ : signal.poll w = .ok false w₁)
    (hc : c.run signal w₁ = .error e w₂) :
    RightLeads signal c w [.looked false, .ran ⟨0, w₁, w₂, some e⟩ false] w₂ (throw e) (throw e)
  /-- `c` comes back cancelled. -/
  cutShort {w w₁ w₂ : W} {u : El t} (h₁ : signal.poll w = .ok false w₁)
    (hc : c.run signal w₁ = .ok ⟨u, true⟩ w₂) :
    RightLeads signal c w [.looked false, .ran ⟨0, w₁, w₂, none⟩ true] w₂
      (stop .inner u) (stop .inner u)
  /-- The second look is the first one that finds it. -/
  atSecond {w w₁ w₂ w₃ : W} {u : El t} (h₁ : signal.poll w = .ok false w₁)
    (hc : c.run signal w₁ = .ok ⟨u, false⟩ w₂) (h₂ : signal.poll w₂ = .ok true w₃) :
    RightLeads signal c w [.looked false, .ran ⟨0, w₁, w₂, none⟩ false, .looked true] w₃
      (stop .beforeContinuation u) (stop .beforeContinuation u)
  /-- The third one is. -/
  atThird {w w₁ w₂ w₃ w₄ : W} {u : El t} (h₁ : signal.poll w = .ok false w₁)
    (hc : c.run signal w₁ = .ok ⟨u, false⟩ w₂) (h₂ : signal.poll w₂ = .ok false w₃)
    (h₃ : signal.poll w₃ = .ok true w₄) :
    RightLeads signal c w
      [.looked false, .ran ⟨0, w₁, w₂, none⟩ false, .looked false, .looked true] w₄
      (stop .beforeNext u) (stop .beforeNext u)
  /-- No look finds it. -/
  through {w w₁ w₂ w₃ w₄ : W} {u : El t} (h₁ : signal.poll w = .ok false w₁)
    (hc : c.run signal w₁ = .ok ⟨u, false⟩ w₂) (h₂ : signal.poll w₂ = .ok false w₃)
    (h₃ : signal.poll w₃ = .ok false w₄) :
    RightLeads signal c w
      [.looked false, .ran ⟨0, w₁, w₂, none⟩ false, .looked false, .looked false] w₄
      (pure ⟨u, false⟩) (pure ⟨u, false⟩)
  /-- In any case, `c` keeps its value if it has been run. -/
  keeps {w w' : W} {ending : Ending (El t)} (hrun : (bindPure c).run signal w = .ok ending w') :
    ∃ events, (bindPure (c.sealed 0)).run signal.chronicled ⟨w, []⟩ = .ok ending ⟨w', events⟩ ∧
      Keeps signal c events ending

theorem run_bindPure {m : Type → Type} [Monad m] [LawfulMonad m] [Reports m]
    (c : Cancellable m (El t)) (signal : Signal m) :
    (bindPure c).run signal = (do
      if ← signal.poll then stop .beforeBind default
      else
        let ending ← c.run signal
        if ending.cancelled then stop .inner ending.value
        else if ← signal.poll then stop .beforeContinuation ending.value
        else if ← signal.poll then stop .beforeNext ending.value
        else return ⟨ending.value, false⟩) := by
  rw [bindPure, run_flatMap]
  simp only [carry_self, pure_bind, run_ofValue]

omit [DecidableEq ι] [∀ t, Inhabited (El t)] in
/-- What is done behind the run of a task that is bound to plain values. -/
theorem adds_behind (ending : Ending (El t)) :
    Adds (if ending.cancelled then stop .inner ending.value
        else do
          if ← signal.chronicled.poll then stop .beforeContinuation ending.value
          else if ← signal.chronicled.poll then stop .beforeNext ending.value
          else return ⟨ending.value, false⟩) fun behind ending' =>
      ending'.value = ending.value ∧
        (ending'.cancelled = true ↔ ending.cancelled = true ∨ true ∈ looks behind) ∧
        calls behind = [] := by
  -- wherever the bind stops, the looks so far and the flag of the task tell why
  have hstop (at_ : Checkpoint) (front : List (Event ε W)) (hcalls : calls front = [])
      (hcut : ending.cancelled = true ∨ true ∈ looks front) :
      Adds (stop at_ ending.value : Chronicled ε W (Ending (El t))) fun new ending' =>
        ending'.value = ending.value ∧
          (ending'.cancelled = true ↔ ending.cancelled = true ∨ true ∈ looks (front ++ new)) ∧
          calls (front ++ new) = [] := by
    refine (Adds.stopped at_ ending.value).mono fun new ending' ⟨hnew, hending⟩ => ?_
    subst hnew hending
    simp only [looks, calls, List.filterMap_append] at hcalls hcut ⊢
    rw [hcalls]
    simpa [Event.look?, Event.call?] using hcut
  split
  · next hcut => exact hstop .inner [] rfl (.inl hcut)
  · next hcut =>
    refine Adds.checkpoint (hstop .beforeContinuation [.looked true] rfl ?_) ?_
    · exact .inr (by simp [looks, Event.look?])
    refine Adds.checkpoint (hstop .beforeNext [.looked false, .looked true] rfl ?_) ?_
    · exact .inr (by simp [looks, Event.look?])
    · exact .pure ⟨rfl, by simpa [looks, Event.look?] using hcut, rfl⟩

theorem adds_keeps :
    Adds ((bindPure (c.sealed 0)).run signal.chronicled) (Keeps signal c) := by
  rw [run_bindPure]
  refine Adds.checkpoint ?_ ((Adds.ran_sealed c 0 signal).bind fun ending new hran => ?_)
  · refine (Adds.stopped _ _).mono fun new ending ⟨hnew, hending⟩ => ?_
    subst hnew hending
    exact .nothing
  · obtain ⟨w, w', hrun, hnew⟩ := hran
    subst hnew
    refine (adds_behind signal ending).mono fun behind ending' ⟨hvalue, hflag, hcalls⟩ => ?_
    exact .value hrun hvalue hflag hcalls

theorem twins_bindPure : (bindPure (c.sealed 0)).Twins (bindPure c) :=
  (Twins.leaf 0 c.run).flatMap fun u => .pure (.ofValue u)

theorem rightIdentity : RightIdentity signal c := by
  constructor
  case made => rfl
  case atFirst =>
    intro w w₁ h₁
    rw [RightLeads, run_bindPure, run_bindPure]
    exact .look h₁ (.here _ _ _)
  case panics =>
    intro w w₁ w₂ e h₁ hc
    rw [RightLeads, run_bindPure, run_bindPure]
    exact .look h₁ (.panics hc (run_sealed_of_error hc 0))
  case cutShort =>
    intro w w₁ w₂ u h₁ hc
    rw [RightLeads, run_bindPure, run_bindPure]
    exact .look h₁ (.act hc (run_sealed_of_ok hc 0) (.here _ _ _))
  case atSecond =>
    intro w w₁ w₂ w₃ u h₁ hc h₂
    rw [RightLeads, run_bindPure, run_bindPure]
    exact .look h₁ (.act hc (run_sealed_of_ok hc 0) (.look h₂ (.here _ _ _)))
  case atThird =>
    intro w w₁ w₂ w₃ w₄ u h₁ hc h₂ h₃
    rw [RightLeads, run_bindPure, run_bindPure]
    exact .look h₁ (.act hc (run_sealed_of_ok hc 0) (.look h₂ (.look h₃ (.here _ _ _))))
  case through =>
    intro w w₁ w₂ w₃ w₄ u h₁ hc h₂ h₃
    rw [RightLeads, run_bindPure, run_bindPure]
    exact .look h₁ (.act hc (run_sealed_of_ok hc 0) (.look h₂ (.look h₃ (.here _ _ _))))
  case keeps =>
    intro w w' ending hrun
    obtain ⟨_, events, hrecorded, rfl, hkeeps⟩ :=
      (adds_keeps signal c).exists_record (twins_bindPure c signal) hrun
    exact ⟨events, hrecorded, hkeeps⟩

end

/-! ## Looks that find nothing -/

/-- Makes a task and runs it. -/
def madeAndRun (signal : Signal (EStateM ε W)) (x : EStateM ε W (Cancellable (EStateM ε W) α)) :
    EStateM ε W (Ending α) :=
  x >>= fun c => c.run signal

/-- The laws of identity for tasks that are made and run under a signal. -/
structure SilentIdentity (El : ι → Type) [∀ t, Inhabited (El t)] (signal : Signal (EStateM ε W)) :
    Prop where
  /-- If nobody sees the looks, `bind (pure a) f` is the call `f a`. -/
  left {R : W → W → Prop} (hpoll : Unseen R signal.poll false) {s t : ι} (a : El s)
    (f : El s → EStateM ε W (Cancellable (EStateM ε W) (El t)))
    (hf : Abreast R (f a) fun next => Abreast R (next.run signal) fun _ => True) :
    EndAlike R (madeAndRun signal ((Builder.cancellable (EStateM ε W) El).bind (.ofValue a) f))
      (madeAndRun signal (f a))
  /-- If nobody sees the looks and the report that a task came back cancelled, `bind c pure` is
  `c`. -/
  right {R : W → W → Prop} (hpoll : Unseen R signal.poll false)
    (hreport : Unseen R (report (.observed .inner) : EStateM ε W Unit) ()) {t : ι}
    (c : Cancellable (EStateM ε W) (El t)) (hc : Abreast R (c.run signal) fun _ => True) :
    EndAlike R (madeAndRun signal
      ((Builder.cancellable (EStateM ε W) El).bind c fun u => return .ofValue u)) (c.run signal)
  /-- If asking does nothing, the sides of the first law are the same act. -/
  left_eq (hpoll : ∀ w, signal.poll w = .ok false w) {s t : ι} (a : El s)
    (f : El s → EStateM ε W (Cancellable (EStateM ε W) (El t))) :
    madeAndRun signal ((Builder.cancellable (EStateM ε W) El).bind (.ofValue a) f) =
      madeAndRun signal (f a)
  /-- On the other side of the second law, no more than the report is missing then. -/
  right_reports (hpoll : ∀ w, signal.poll w = .ok false w) {t : ι}
    (c : Cancellable (EStateM ε W) (El t)) :
    madeAndRun signal
      ((Builder.cancellable (EStateM ε W) El).bind c fun u => return .ofValue u) = do
        let ending ← c.run signal
        if ending.cancelled then report (.observed .inner)
        return ending
  /-- So its sides are the same act, if reporting does nothing either. -/
  right_eq (hpoll : ∀ w, signal.poll w = .ok false w) (hreports : Unheard (EStateM ε W)) {t : ι}
    (c : Cancellable (EStateM ε W) (El t)) :
    madeAndRun signal
      ((Builder.cancellable (EStateM ε W) El).bind c fun u => return .ofValue u) = c.run signal

section
variable {R : W → W → Prop} {signal : Signal (EStateM ε W)}

theorem endAlike_bindValue (hpoll : Unseen R signal.poll false) (a : El s)
    (f : El s → EStateM ε W (Cancellable (EStateM ε W) (El t)))
    (hf : Abreast R (f a) fun next => Abreast R (next.run signal) fun _ => True) :
    EndAlike R ((bindValue a f).run signal) (madeAndRun signal (f a)) := by
  rw [run_bindValue]
  refine hpoll.look (hpoll.look (hf.endAlike_bind fun next hnext => ?_))
  exact hpoll.look hnext.ends

theorem endAlike_bindPure (hpoll : Unseen R signal.poll false)
    (hreport : Unseen R (report (.observed .inner) : EStateM ε W Unit) ())
    (c : Cancellable (EStateM ε W) (El t)) (hc : Abreast R (c.run signal) fun _ => True) :
    EndAlike R ((bindPure c).run signal) (c.run signal) := by
  -- with `pure` behind it, `c` stands in front of something on both sides
  have hbind : EndAlike R ((bindPure c).run signal) (c.run signal >>= pure) := by
    rw [run_bindPure]
    refine hpoll.look (hc.endAlike_bind fun ending _ => ?_)
    obtain ⟨u, cancelled⟩ := ending
    cases cancelled with
    | true => exact hreport.in_front (.pure _)
    | false => exact hpoll.look (hpoll.look (.pure _))
  rwa [bind_pure] at hbind

theorem bindPure_reports (hpoll : ∀ w, signal.poll w = .ok false w)
    (c : Cancellable (EStateM ε W) (El t)) :
    (bindPure c).run signal = do
      let ending ← c.run signal
      if ending.cancelled then report (.observed .inner)
      return ending := by
  have hsilent : Unseen Eq signal.poll false := .of_eq hpoll
  have hsame (x : EStateM ε W (Ending (El t))) : EndAlike Eq x x :=
    (Abreast.of_eq fun _ => trivial).ends
  refine EndAlike.eq ?_
  rw [run_bindPure]
  refine hsilent.look ((Abreast.of_eq fun _ => trivial).endAlike_bind fun ending _ => ?_)
  obtain ⟨u, cancelled⟩ := ending
  cases cancelled with
  | true => exact hsame _
  | false => exact hsilent.look (hsilent.look (hsame _))

theorem silentIdentity : SilentIdentity El signal := by
  constructor
  case left => exact fun hpoll s t a f hf => endAlike_bindValue hpoll a f hf
  case right => exact fun hpoll hreport t c hc => endAlike_bindPure hpoll hreport c hc
  case left_eq =>
    intro hpoll s t a f
    exact (endAlike_bindValue (.of_eq hpoll) a f (.of_eq fun _ => .of_eq fun _ => trivial)).eq
  case right_reports => exact fun hpoll t c => bindPure_reports hpoll c
  case right_eq =>
    intro hpoll hreports t c
    have hreport : Unseen Eq (report (.observed .inner) : EStateM ε W Unit) () :=
      .of_eq fun w => congrFun (hreports _) w
    exact (endAlike_bindPure (.of_eq hpoll) hreport c (.of_eq fun _ => trivial)).eq

end

/-- **The laws of identity under any signal.** A bind of a plain value ends at the first of its
looks that finds cancellation requested, with the default or with the value, and otherwise does what
the task does that `f` answers, from there on. A bind to plain values keeps the value of its task,
and sets the flag if the task does or if a look behind it finds cancellation requested. If no look
ever does, both are the identity laws of the builder: the same value, the same flag or panic, and
the same effects, but for those of asking and reporting. -/
theorem identity_laws (El : ι → Type) [∀ t, Inhabited (El t)] (signal : Signal (EStateM ε W)) :
    (∀ {s t : ι} (a : El s) (f : El s → EStateM ε W (Cancellable (EStateM ε W) (El t))),
      LeftIdentity signal a f) ∧
    (∀ {t : ι} (c : Cancellable (EStateM ε W) (El t)), RightIdentity signal c) ∧
    SilentIdentity El signal :=
  ⟨leftIdentity signal, rightIdentity signal, silentIdentity⟩

section
open Script

/-- A world of the answers that a signal is still to give, and of a number. -/
structure Queue where
  answers : List Bool
  number : Nat

/-- A host that listens to nothing. -/
abbrev heedless : Reports (EStateM Unit Queue) := ⟨fun _ => return ()⟩

attribute [local instance] heedless

/-- Gives the answers in turn, and then always `false`. -/
def Queue.signal : Signal (EStateM Unit Queue) :=
  ⟨fun w => .ok (w.answers.headD false) { w with answers := w.answers.tail }⟩

/-- Counts, and answers a task that counts ten. -/
def counting (u : Int64) : EStateM Unit Queue (Cancellable (EStateM Unit Queue) Int64) := do
  modify fun w => { w with number := w.number + 1 }
  return .delay do
    modify fun w => { w with number := w.number + 10 }
    return u + 1

/-- The number is the same, and no answer that is left is `true`. -/
def Queue.Calm (w w' : Queue) : Prop := true ∉ w.answers ∧ w.number = w'.number

theorem unseen_signal : Unseen Queue.Calm Queue.signal.poll false := by
  rintro ⟨answers, number⟩ w' ⟨hcalm, hnumber⟩
  cases answers with
  | nil => exact ⟨_, rfl, hcalm, hnumber⟩
  | cons answer answers =>
    cases answer with
    | false => exact ⟨_, rfl, by simpa using hcalm, hnumber⟩
    | true => simp at hcalm

theorem abreast_counting (u : Int64) : Abreast Queue.Calm (counting u) fun next =>
    Abreast Queue.Calm (next.run Queue.signal) fun _ => True := by
  have hmodify (n : Nat) : Abreast Queue.Calm
      (modify fun w => { w with number := w.number + n } : EStateM Unit Queue Unit) fun _ => True :=
    .of_ends fun w w' hw => .ok () ⟨hw.1, congrArg (· + n) hw.2⟩
  refine (hmodify 1).bind fun _ _ => .pure ?_
  have hwork : Abreast Queue.Calm (do
      modify fun w => { w with number := w.number + 10 }
      return u + 1 : EStateM Unit Queue Int64) fun _ => True :=
    (hmodify 10).bind fun _ _ => .pure trivial
  exact hwork.bind fun _ _ => .pure trivial

/-- The bind of five to the counting, made and run. -/
def fiveCounted : EStateM Unit Queue (Ending Int64) :=
  madeAndRun Queue.signal ((Builder.cancellable (EStateM Unit Queue) Script.El).bind
    (s := .int) (t := .int) (.ofValue 5) counting)

/-- The bind of a seven to plain values, made and run. -/
def sevenKept : EStateM Unit Queue (Ending Int64) :=
  madeAndRun Queue.signal ((Builder.cancellable (EStateM Unit Queue) Script.El).bind
    (s := .int) (t := .int) (.delay (return 7)) fun u => return .ofValue u)

/-- At the third look five is kept, and the call has been counted, but not its task. At the look
behind its task seven is kept. Where no answer is `true`, the bind of five counts as the call and
its task do. -/
theorem counting_identities :
    fiveCounted ⟨[false, false, true], 0⟩ = .ok ⟨5, true⟩ ⟨[], 1⟩ ∧
    sevenKept ⟨[false, true], 0⟩ = .ok ⟨7, true⟩ ⟨[], 0⟩ ∧
    SameEnd Queue.Calm (fiveCounted ⟨[false, false, false, false], 0⟩)
      (madeAndRun Queue.signal (counting 5) ⟨[], 0⟩) := by
  obtain ⟨hleft, hright, hsilent⟩ := identity_laws Script.El Queue.signal
  have hthird := (hleft (s := .int) (t := .int) 5 counting).atThird
    (w := ⟨[false, false, true], 0⟩) rfl rfl rfl rfl
  have hsecond := (hright (t := .int) (.delay (return 7))).atSecond
    (w := ⟨[false, true], 0⟩) rfl rfl rfl
  have hcalm : Queue.Calm ⟨[false, false, false, false], 0⟩ ⟨[], 0⟩ := ⟨by simp, rfl⟩
  exact ⟨hthird.goes, hsecond.goes,
    hsilent.left (s := .int) (t := .int) unseen_signal 5 counting (abreast_counting 5) _ _ hcalm⟩

end

end Cancellable

end Workflow
