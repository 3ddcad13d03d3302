import Workflow.Chain
import Workflow.Proofs.Chronicle.Adds
import Workflow.Script.Session

/-!
# Binds nested to the left

`Chain.nestLeft` hangs continuations on a task from the outside, so the bind that was made last is
the first to run: it looks at the signal, starts the bind inside it, and so on down to the task.
`Chain.course` tells the same run as one loop. The binds look, the last one first (`descend`); the
task is run; and then every continuation has its turn, the first one first (`onward`). A bind that
ends early takes all binds around it with it: each of them reports `inner`, and each of them carries
the value to its own type, so that the value is lost where the type changes for the first time, even
if it changes back later (`kept`).

The result is `nestLeft_eq_course`, which also says what an uncancelled run does, look by look.
-/

namespace Workflow

variable {m : Type → Type} {ι : Type} [DecidableEq ι] {El : ι → Type} [∀ t, Inhabited (El t)]
  {r s t : ι}

/-! ## What the binds around a cancelled one keep of its value -/

theorem carry_default : (carry (default : El s) : El t) = default := by
  by_cases h : s = t
  · subst h
    exact carry_self default
  · exact carry_of_ne h default

namespace Chain

variable {b : Builder m El}

/-- The element types that the continuations lead to. -/
def types {s t : ι} : Chain b s t → List ι
  | nil => []
  | @cons _ _ _ _ _ u _ _ rest => u :: rest.types

/-- What is left of `u` when every bind of the chain has carried it: `u` itself if all of them
compute elements of its type, and the default otherwise. -/
def kept (chain : Chain b s t) (u : El s) : El t :=
  if ∀ r ∈ chain.types, r = s then carry u else default

theorem kept_nil (u : El t) : (nil : Chain b t t).kept u = u := by
  simp [kept, types]

theorem kept_default (chain : Chain b s t) : chain.kept default = default := by
  unfold kept
  split
  · exact carry_default
  · rfl

theorem kept_cons (k : El s → m (b.Comp r)) (rest : Chain b r t) (u : El s) :
    (cons k rest).kept u = rest.kept (carry u) := by
  by_cases hr : r = s
  · subst hr
    simp [kept, types]
  · -- the value is lost here, and what the other binds carry is a default already
    rw [carry_of_ne (Ne.symm hr), kept_default]
    exact if_neg fun h => hr (h r (List.mem_cons_self ..))

/-- An integer does not come back from a chain that leads through a text. -/
example (b : Builder m Script.El) (k : Script.El .int → m (b.Comp .text))
    (k' : Script.El .text → m (b.Comp .int)) :
    (cons k (cons k' nil) : Chain b .int .int).kept (5 : Int64) = (0 : Int64) := rfl

end Chain

/-! ## The loop -/

section
variable [Monad m]

/-- The looks of `n` binds before they start, from the outermost inwards. If one of them is answered
`true`, the result is the number of binds that wait outside. -/
def descend (signal : Signal m) : (n waiting : Nat) → m (Option Nat)
  | 0, _ => return none
  | n + 1, waiting => do
    if ← signal.poll then return some waiting
    else descend signal n (waiting + 1)

/-- The innermost bind looks last. -/
theorem descend_succ [LawfulMonad m] (signal : Signal m) (n waiting : Nat) :
    descend signal (n + 1) waiting = (do
      match ← descend signal n waiting with
      | some w => return some w
      | none => if ← signal.poll then return some (waiting + n) else return none) := by
  induction n generalizing waiting with
  | zero => simp [descend]
  | succ n ih =>
    rw [descend]
    conv => rhs; rw [descend]
    rw [bind_assoc]
    refine congrArg (signal.poll >>= ·) (funext fun answer => ?_)
    cases answer with
    | true => simp
    | false =>
      simp only [Bool.false_eq_true, if_false]
      rw [ih, show waiting + 1 + n = waiting + (n + 1) by omega]

theorem ite_bind {α β : Type} (answer : Bool) (x y : m α) (f : α → m β) :
    ((if answer then x else y) >>= f) = if answer then x >>= f else y >>= f := by
  cases answer <;> rfl

end

section
variable [Monad m] [Reports m]

/-- `n` waiting binds report, one after the other, that what they waited for was cancelled. -/
def giveUp : Nat → m Unit
  | 0 => return ()
  | n + 1 => do
    report (.observed .inner)
    giveUp n

/-- A bind ends early at a checkpoint, and the binds that wait outside end with it. -/
def cutOff {α : Type} (at_ : Checkpoint) (waiting : Nat) (value : α) : m (Ending α) := do
  report (.observed at_)
  giveUp waiting
  return ⟨value, true⟩

namespace Chain

/-- From the ending of a task through the continuations of the binds around it. -/
def onward (signal : Signal m) {s t : ι} :
    Chain (Builder.cancellable m El) s t → Ending (El s) → m (Ending (El t))
  | nil, ending => return ending
  | cons k rest, ending => do
    if ending.cancelled then
      cutOff .inner rest.length ((cons k rest).kept ending.value)
    else if ← signal.poll then
      cutOff .beforeContinuation rest.length ((cons k rest).kept ending.value)
    else
      let next ← k ending.value
      if ← signal.poll then
        cutOff .beforeNext rest.length ((cons k rest).kept ending.value)
      else
        rest.onward signal (← Cancellable.run next signal)

/-- A run of the binds around `c`, told as one loop. -/
def course (chain : Chain (Builder.cancellable m El) s t) (c : Cancellable m (El s))
    (signal : Signal m) : m (Ending (El t)) := do
  match ← descend signal chain.length 0 with
  | some waiting => cutOff .beforeBind waiting default
  | none => chain.onward signal (← c.run signal)

/-! ## The loop is what runs -/

variable [LawfulMonad m]

theorem onward_cancelled (chain : Chain (Builder.cancellable m El) s t) (signal : Signal m)
    (u : El s) : chain.onward signal ⟨u, true⟩ = (do
      giveUp chain.length
      return ⟨chain.kept u, true⟩) := by
  cases chain with
  | nil => simp [onward, giveUp, length, kept_nil]
  | cons k rest =>
    rw [onward, if_pos rfl]
    exact (bind_assoc _ _ _).symm

/-- One bind ends early, and the binds around it with it. -/
theorem stop_onward (rest : Chain (Builder.cancellable m El) s t) (signal : Signal m)
    (at_ : Checkpoint) (u : El s) :
    (Cancellable.stop at_ u >>= rest.onward signal) = cutOff at_ rest.length (rest.kept u) := by
  simp [Cancellable.stop, onward_cancelled, cutOff]

theorem course_cons (k : El s → m (Cancellable m (El r)))
    (rest : Chain (Builder.cancellable m El) r t) (c : Cancellable m (El s)) (signal : Signal m) :
    (cons k rest : Chain (Builder.cancellable m El) s t).course c signal =
      rest.course (c.flatMap k) signal := by
  have hkept (u : El s) : (cons k rest : Chain (Builder.cancellable m El) s t).kept u =
      rest.kept (carry u) := kept_cons k rest u
  unfold course
  rw [show (cons k rest).length = rest.length + 1 from rfl, descend_succ, bind_assoc]
  refine congrArg (_ >>= ·) (funext fun outside => ?_)
  cases outside with
  | some w => simp
  | none =>
    -- every exit of the bind hands an ending to the binds around it
    simp only [Cancellable.run_flatMap, bind_assoc, ite_bind, stop_onward, pure_bind, onward,
      hkept, kept_default, Nat.zero_add]
    rfl

theorem nestLeft_eq (chain : Chain (Builder.cancellable m El) s t) (c : Cancellable m (El s)) :
    chain.nestLeft c = return ⟨chain.course c⟩ := by
  induction chain with
  | nil =>
    refine congrArg (fun run => pure (Cancellable.mk run)) (funext fun signal => ?_)
    simp [course, descend, length, onward]
  | cons k rest ih =>
    refine Eq.trans ?_ ((ih (c.flatMap k)).trans ?_)
    · exact pure_bind (c.flatMap k) (nestLeft · rest)
    · exact congrArg (fun run => pure (Cancellable.mk run)) (funext fun signal =>
        (course_cons k rest c signal).symm)

end Chain

end

/-! ## The record of an uncancelled run -/

variable {ε W : Type}

/-- The record of `n` continuations that have their turns one after the other. -/
def turns : (first n : Nat) → List Mark
  | _, 0 => []
  | first, n + 1 =>
    .looked false :: .called first :: .looked false :: .ran first false :: turns (first + 1) n

/-- The record of an uncancelled run with `n` continuations around a task: that task has the number
`0` and the continuations have the numbers from `1` on. -/
def straight (n : Nat) : List Mark := .replicate n (.looked false) ++ .ran 0 false :: turns 1 n

theorem looks_turns (first n : Nat) :
    (turns first n).filterMap Mark.look? = .replicate (2 * n) false := by
  induction n generalizing first with
  | zero => rfl
  | succ n ih =>
    calc (turns first (n + 1)).filterMap Mark.look?
        = false :: false :: (turns (first + 1) n).filterMap Mark.look? := rfl
      _ = false :: false :: .replicate (2 * n) false := by rw [ih]
      _ = .replicate (2 * (n + 1)) false := rfl

theorem called_turns (first n : Nat) :
    (turns first n).filterMap Mark.called? = List.range' first n := by
  induction n generalizing first with
  | zero => rfl
  | succ n ih =>
    calc (turns first (n + 1)).filterMap Mark.called?
        = first :: (turns (first + 1) n).filterMap Mark.called? := rfl
      _ = first :: List.range' (first + 1) n := by rw [ih]
      _ = List.range' first (n + 1) := List.range'_succ.symm

theorem looks_straight (n : Nat) :
    (straight n).filterMap Mark.look? = .replicate (3 * n) false := by
  have hbefore : (List.replicate n (Mark.looked false)).filterMap Mark.look? =
      .replicate n false := by
    simp [List.filterMap_replicate, Mark.look?]
  calc (straight n).filterMap Mark.look?
      = .replicate n false ++ (turns 1 n).filterMap Mark.look? := by
        rw [straight, List.filterMap_append, hbefore]
        rfl
    _ = .replicate (n + 2 * n) false := by rw [looks_turns, List.replicate_append_replicate]
    _ = .replicate (3 * n) false := by rw [show n + 2 * n = 3 * n by omega]

theorem called_straight (n : Nat) :
    (straight n).filterMap Mark.called? = List.range' 1 n := by
  have hbefore : (List.replicate n (Mark.looked false)).filterMap Mark.called? = [] := by
    simp [List.filterMap_replicate, Mark.called?]
  rw [straight, List.filterMap_append, hbefore]
  exact called_turns 1 n

/-- Nothing is promised of a run that always ends cancelled. -/
theorem Adds.of_cut {α : Type} {x : Chronicled ε W (Ending α)}
    {P : List (Event ε W) → Ending α → Prop} (h : Adds x fun _ ending => ending.cancelled = true) :
    Adds x fun events ending => ending.cancelled = false → P events ending := by
  refine h.mono fun _ ending hcut huncut => ?_
  rw [hcut] at huncut
  exact nomatch huncut

/-- Whenever a run of `x` ends uncancelled, it leaves this record. -/
abbrev Uncut {α : Type} (x : Chronicled ε W (Ending α)) (marks : List Mark) : Prop :=
  Adds x fun events ending => ending.cancelled = false → events.map Event.mark = marks

/-- A checkpoint that does not stop the run was answered `false`. -/
theorem Uncut.look {α : Type} {x y : Chronicled ε W (Ending α)} {marks : List Mark}
    (signal : Signal (EStateM ε W)) (hx : Adds x fun _ ending => ending.cancelled = true)
    (hy : Uncut y marks) :
    Uncut (signal.chronicled.poll >>= fun answer => if answer then x else y)
      (.looked false :: marks) := by
  refine Adds.checkpoint hx.of_cut (hy.mono fun _ _ h huncut => ?_)
  exact congrArg (Mark.looked false :: ·) (h huncut)

theorem adds_descend (signal : Signal (EStateM ε W)) (n waiting : Nat) :
    Adds (descend signal.chronicled n waiting) fun events outside =>
      outside = none → events.map Event.mark = .replicate n (.looked false) := by
  induction n generalizing waiting with
  | zero => exact .pure fun _ => rfl
  | succ n ih =>
    refine Adds.checkpoint (.pure nofun) ?_
    refine (ih (waiting + 1)).mono fun events outside hlooks hnone => ?_
    exact congrArg (Mark.looked false :: ·) (hlooks hnone)

variable [Reports (EStateM ε W)]

namespace Chain

/-- The same continuations with a record of their calls and of the tasks that they answer. -/
def chronicled (first : Nat) {s t : ι} : Chain (Builder.cancellable (EStateM ε W) El) s t →
    Chain (Builder.cancellable (Chronicled ε W) El) s t
  | nil => nil
  | cons k rest =>
    cons (fun u => (Cancellable.sealed · first) <$> Chronicled.calling first (k u))
      (rest.chronicled (first + 1))

theorem length_chronicled (first : Nat) (chain : Chain (Builder.cancellable (EStateM ε W) El) s t) :
    (chain.chronicled first).length = chain.length := by
  induction chain generalizing first with
  | nil => rfl
  | cons k rest ih => exact congrArg (· + 1) (ih (first + 1))

end Chain

theorem adds_giveUp (n : Nat) : Adds (giveUp n : Chronicled ε W Unit) fun _ _ => True := by
  induction n with
  | zero => exact .pure trivial
  | succ n ih => exact (Adds.report (P := fun _ _ => True) trivial).bind fun _ _ _ => ih

theorem adds_cutOff {α : Type} (at_ : Checkpoint) (waiting : Nat) (value : α) :
    Adds (cutOff at_ waiting value : Chronicled ε W (Ending α))
      fun _ ending => ending.cancelled = true :=
  (Adds.report (P := fun _ _ => True) trivial).bind fun _ _ _ =>
    (adds_giveUp waiting).bind fun _ _ _ => .pure rfl

namespace Chain

/-- A task, and what comes after it. -/
theorem uncut_run {c : Cancellable (EStateM ε W) (El s)} {closure : Nat}
    {chain : Chain (Builder.cancellable (Chronicled ε W) El) s t} {signal : Signal (EStateM ε W)}
    {marks : List Mark} (h : ∀ u, Uncut (chain.onward signal.chronicled ⟨u, false⟩) marks) :
    Uncut ((c.sealed closure).run signal.chronicled >>= chain.onward signal.chronicled)
      (.ran closure false :: marks) := by
  refine (Adds.run_sealed c closure signal.chronicled).bind fun ending events hran => ?_
  obtain ⟨u, cancelled⟩ := ending
  cases cancelled with
  | true =>
    rw [onward_cancelled]
    exact (adds_giveUp chain.length).bind fun _ _ _ => .pure nofun
  | false =>
    refine (h u).mono fun more ending hmore huncut => ?_
    rw [List.map_append, hran, hmore huncut]
    rfl

theorem uncut_onward (first : Nat) (chain : Chain (Builder.cancellable (EStateM ε W) El) s t)
    (signal : Signal (EStateM ε W)) (u : El s) :
    Uncut ((chain.chronicled first).onward signal.chronicled ⟨u, false⟩)
      (turns first chain.length) := by
  induction chain generalizing first with
  | nil =>
    refine Adds.pure ?_
    exact fun _ => rfl
  | cons k rest ih =>
    refine Uncut.look signal (adds_cutOff _ _ _) ?_
    refine (Adds.calling_sealed first (k u)).bind fun next events hnext => ?_
    obtain ⟨hcalled, d, rfl⟩ := hnext
    refine (Uncut.look signal (adds_cutOff _ _ _) (uncut_run (ih (first + 1)))).mono
      fun more ending hmore huncut => ?_
    rw [List.map_append, hcalled, hmore huncut]
    rfl

theorem uncut_course (chain : Chain (Builder.cancellable (EStateM ε W) El) s t)
    (c : Cancellable (EStateM ε W) (El s)) (signal : Signal (EStateM ε W)) :
    Uncut ((chain.chronicled 1).course (c.sealed 0) signal.chronicled) (straight chain.length) := by
  refine (adds_descend signal _ 0).bind fun outside events hlooks => ?_
  cases outside with
  | some w => exact (adds_cutOff .beforeBind w default).of_cut
  | none =>
    refine (uncut_run (uncut_onward 1 chain signal)).mono fun more ending hmore huncut => ?_
    rw [List.map_append, hlooks rfl, hmore huncut, length_chronicled]
    rfl

/-- The record is kept beside a run that is the same without it. -/
theorem nestLeft_shadows (first : Nat)
    (chain : Chain (Builder.cancellable (EStateM ε W) El) s t)
    {c : Cancellable (Chronicled ε W) (El s)} {d : Cancellable (EStateM ε W) (El s)}
    (h : c.Twins d) :
    Shadows Cancellable.Twins ((chain.chronicled first).nestLeft c) (chain.nestLeft d) := by
  induction chain generalizing first with
  | nil => exact .pure h
  | cons k rest ih =>
    refine Shadows.bind (R := Cancellable.Twins) (.pure (h.flatMap fun u => ?_)) fun _ _ => ih _
    exact Cancellable.Twins.calling_sealed first (k u)

/-- **What a left-nested chain of binds does.** Nesting the continuations makes one task and does
nothing else, and the task's run is the loop `course`, exit by exit, under every signal. An
uncancelled run with `n` binds looks at the signal `n` times, runs the innermost task, and then, for
every continuation in order, looks, calls it, looks again and runs the task that it answered; so
there are `3 * n` looks, and every continuation is called once. -/
theorem nestLeft_eq_course (chain : Chain (Builder.cancellable (EStateM ε W) El) s t)
    (c : Cancellable (EStateM ε W) (El s)) :
    chain.nestLeft c = pure ⟨chain.course c⟩ ∧
    ∀ (signal : Signal (EStateM ε W)) (w w' : W) (ending : Ending (El t)),
      chain.course c signal w = .ok ending w' → ending.cancelled = false →
      ∃ c' events, (chain.chronicled 1).nestLeft (c.sealed 0) ⟨w, []⟩ = .ok c' ⟨w, []⟩ ∧
        c'.run signal.chronicled ⟨w, []⟩ = .ok ending ⟨w', events⟩ ∧
        events.map Event.mark = straight chain.length ∧
        looks events = .replicate (3 * chain.length) false ∧
        (events.map Event.mark).filterMap Mark.called? = List.range' 1 chain.length := by
  refine ⟨chain.nestLeft_eq c, fun signal w w' ending hrun huncut => ?_⟩
  have htwins : ((⟨(chain.chronicled 1).course (c.sealed 0)⟩ : Cancellable _ _)).Twins
      ⟨chain.course c⟩ := by
    have h := nestLeft_shadows 1 chain (Cancellable.Twins.leaf 0 c.run) ⟨w, []⟩
    rw [nestLeft_eq, nestLeft_eq] at h
    cases h with
    | ok _ htwins => exact htwins
  obtain ⟨_, events, hrun', rfl⟩ := (htwins signal).exists_record hrun []
  obtain ⟨new, hnew, hmarks⟩ := uncut_course chain c signal _ _ _ hrun'
  have hevents : events.map Event.mark = straight chain.length := by
    rw [show events = new by simpa using hnew]
    exact hmarks huncut
  refine ⟨_, events, by rw [nestLeft_eq]; rfl, hrun', hevents, ?_, ?_⟩
  · rw [looks_eq_marks, hevents, looks_straight]
  · rw [hevents, called_straight]

section
open Script

/-- Two continuations that count on. -/
def countOn : Chain (Builder.cancellable Act Script.El) .int .int :=
  replicate 2 fun u => return .ofValue (u + 1)

theorem countOn_straight : ∃ c' events,
    (countOn.chronicled 1).nestLeft (Cancellable.sealed (.ofValue 1) 0) ⟨Session.fresh, []⟩ =
      .ok c' ⟨Session.fresh, []⟩ ∧
    Cancellable.run c' (Signal.chronicled .never) ⟨Session.fresh, []⟩ =
      .ok ⟨3, false⟩ ⟨Session.fresh, events⟩ ∧
    events.map Event.mark = straight 2 ∧ looks events = .replicate 6 false := by
  have hrun : countOn.course (.ofValue 1) .never Session.fresh = .ok ⟨3, false⟩ Session.fresh := rfl
  obtain ⟨c', events, hbuild, hrun', hmarks, hlooks, -⟩ :=
    (nestLeft_eq_course countOn (.ofValue 1)).2 .never _ _ _ hrun rfl
  exact ⟨c', events, hbuild, hrun', hmarks, hlooks⟩

end

end Chain

end Workflow
