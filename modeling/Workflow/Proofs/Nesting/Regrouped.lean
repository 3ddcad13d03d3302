import Workflow.Proofs.Nesting.Left
import Workflow.Proofs.Signal.Lasting
import Workflow.Script.Session

/-!
# Regrouping two binds

Two binds can be grouped to the left, `bind (bind c f) g`, or to the right,
`bind c (fun u => bind (f u) g)`. With the first grouping both binds look at the signal before `c`
is started; with the second one the inner bind looks when `f` has been called, right behind the last
look of the outer one. Under a signal whose answer `false` lasts until user code does something
(`Signal.Lasting`), neither of the two can find out anything new, so both groupings run one course,
`inTurn`: `c`, then `f` on its value and the task that `f` answers, then `g` on the value of that
task and the task that `g` answers, with a look between any two of them (`run_left`, `run_right`).

Two differences are left, and both show only when `c`'s part is cut off. Grouped to the left there
is one more bind outside, which reports `inner` once more; and what is left of `c`'s value is carried
to the type of `f`'s task before it is carried to that of `g`'s. Over one type the second makes no
difference (`regroup_live`). Over several types it loses a value that comes back to its own type by
way of another one, and this is the only way in which the groupings differ when nobody cancels from
outside (`regroup_uncancelled_iff`).
-/

namespace Workflow

variable {m : Type → Type} {ι : Type} {El : ι → Type} {r s t : ι}

namespace Builder

variable [Monad m] (b : Builder m El)

/-- `bind (bind c f) g`. -/
def bindLeft (c : b.Comp r) (f : El r → m (b.Comp s)) (g : El s → m (b.Comp t)) :
    m (b.Comp t) := do
  b.bind (← b.bind c f) g

/-- `bind c (fun u => bind (f u) g)`. -/
def bindRight (c : b.Comp r) (f : El r → m (b.Comp s)) (g : El s → m (b.Comp t)) :
    m (b.Comp t) :=
  b.bind c fun u => do b.bind (← f u) g

end Builder

/-! ## One course for both groupings -/

variable [DecidableEq ι] [∀ t, Inhabited (El t)]

namespace Cancellable

section
variable [Monad m] [Reports m]

/-- A task, then the one that `f` answers, then the one that `g` answers. If the first part is cut
off, `kept` says what is left of its value, and the binds that wait outside give up as well. -/
def inTurn (kept : El r → El t) (outside : Nat) (c : Cancellable m (El r))
    (f : El r → m (Cancellable m (El s))) (g : El s → m (Cancellable m (El t)))
    (signal : Signal m) : m (Ending (El t)) := do
  if ← signal.poll then stop .beforeBind default
  else
    let first ← c.run signal
    if first.cancelled then cutOff .inner outside (kept first.value)
    else if ← signal.poll then cutOff .beforeContinuation outside (kept first.value)
    else
      let next ← f first.value
      if ← signal.poll then cutOff .beforeNext outside (kept first.value)
      else
        let second ← next.run signal
        if second.cancelled then stop .inner (carry second.value)
        else if ← signal.poll then stop .beforeContinuation (carry second.value)
        else
          let last ← g second.value
          if ← signal.poll then stop .beforeNext (carry second.value)
          else last.run signal

variable [LawfulMonad m] {signal : Signal m} (c : Cancellable m (El r))
  (f : El r → m (Cancellable m (El s))) (g : El s → m (Cancellable m (El t)))

theorem run_left (hsignal : signal.Lasting) :
    ((c.flatMap f).flatMap g).run signal =
      inTurn (fun u => carry (carry u : El s)) 1 c f g signal := by
  rw [run_flatMap, run_flatMap, inTurn]
  simp only [bind_assoc, ite_bind, stop, pure_bind, if_true, cutOff, giveUp]
  -- the outer bind has looked, and the inner one looks again before it starts `c`
  exact hsignal _ _ _

theorem run_right (hsignal : signal.Lasting) :
    (c.flatMap fun u => do return (← f u).flatMap g).run signal =
      inTurn (fun u => carry u) 0 c f g signal := by
  have hnext (d : Cancellable m (El s)) (u : El r) :
      (do if ← signal.poll then stop .beforeNext (carry u) else (d.flatMap g).run signal) =
        (do
          if ← signal.poll then stop .beforeNext (carry u)
          else
            let second ← d.run signal
            if second.cancelled then stop .inner (carry second.value)
            else if ← signal.poll then stop .beforeContinuation (carry second.value)
            else
              let last ← g second.value
              if ← signal.poll then stop .beforeNext (carry second.value)
              else last.run signal) := by
    -- the outer bind has looked after `f`, and the inner one looks again before it starts `d`
    rw [run_flatMap]
    exact hsignal _ _ _
  rw [run_flatMap, inTurn]
  simp only [bind_assoc, pure_bind, hnext, cutOff, giveUp]
  rfl

/-- When nobody cancels from outside, only `c` itself can cut its part off. -/
theorem inTurn_never (kept : El r → El t) (outside : Nat) :
    inTurn kept outside c f g .never = (do
      let first ← c.runUncancelled
      if first.cancelled then cutOff .inner outside (kept first.value)
      else
        let second ← (← f first.value).runUncancelled
        if second.cancelled then stop .inner (carry second.value)
        else (← g second.value).runUncancelled) := by
  simp [inTurn, Signal.never, Signal.constant, runUncancelled]

end

theorem bindLeft_eq [Monad m] [LawfulMonad m] [Reports m] (c : Cancellable m (El r))
    (f : El r → m (Cancellable m (El s))) (g : El s → m (Cancellable m (El t))) :
    (Builder.cancellable m El).bindLeft c f g = pure ((c.flatMap f).flatMap g) :=
  pure_bind (c.flatMap f) fun d => pure (d.flatMap g)

theorem bindRight_eq [Monad m] [Reports m] (c : Cancellable m (El r))
    (f : El r → m (Cancellable m (El s))) (g : El s → m (Cancellable m (El t))) :
    (Builder.cancellable m El).bindRight c f g =
      pure (c.flatMap fun u => do return (← f u).flatMap g) := rfl

/-! ## Over one type -/

/-- What the library reports does nothing in the host. -/
def Unheard (m : Type → Type) [Monad m] [Reports m] : Prop :=
  ∀ n : Notice, (report n : m Unit) = pure ()

theorem giveUp_of_unheard [Monad m] [LawfulMonad m] [Reports m] (h : Unheard m) (n : Nat) :
    (giveUp n : m Unit) = pure () := by
  induction n with
  | zero => rfl
  | succ n ih => rw [giveUp, h, ih, pure_bind]

theorem cutOff_of_unheard [Monad m] [LawfulMonad m] [Reports m] {α : Type} (h : Unheard m)
    (at_ : Checkpoint) (waiting : Nat) (a : α) :
    (cutOff at_ waiting a : m (Ending α)) = pure ⟨a, true⟩ := by
  rw [cutOff, h, giveUp_of_unheard h, pure_bind, pure_bind]

variable {ε W : Type} [Reports (EStateM ε W)]

/-- **Over one type two binds may be regrouped, even while user code cancels.** Let the answer of the
signal change only with the world. Both groupings are tasks, and the runs of both are the course
`inTurn`, from every world and with every panic: what user code is called, in which order, with which
values, and what it does to the world is the same, and a run that is cut off keeps the same value.
The grouping to the left reports one `inner` more where the first part is cut off; where reports do
nothing, the two runs are equal. -/
theorem regroup_live (c : Cancellable (EStateM ε W) (El t))
    (f g : El t → EStateM ε W (Cancellable (EStateM ε W) (El t))) :
    ∃ left right : Cancellable (EStateM ε W) (El t),
      (Builder.cancellable (EStateM ε W) El).bindLeft c f g = pure left ∧
      (Builder.cancellable (EStateM ε W) El).bindRight c f g = pure right ∧
      ∀ asked : W → Bool,
        left.run (.reading asked) = inTurn id 1 c f g (.reading asked) ∧
        right.run (.reading asked) = inTurn id 0 c f g (.reading asked) ∧
        (Unheard (EStateM ε W) → left.run (.reading asked) = right.run (.reading asked)) := by
  have hleft : (fun u : El t => (carry (carry u : El t) : El t)) = id := by
    funext u
    rw [carry_self, carry_self]
    rfl
  have hright : (fun u : El t => (carry u : El t)) = id := by
    funext u
    rw [carry_self]
    rfl
  refine ⟨_, _, bindLeft_eq c f g, bindRight_eq c f g, fun asked => ?_⟩
  have hl := run_left c f g (Signal.lasting_reading asked)
  have hr := run_right c f g (Signal.lasting_reading asked)
  rw [hleft] at hl
  rw [hright] at hr
  refine ⟨hl, hr, fun hunheard => hl.trans (Eq.trans ?_ hr.symm)⟩
  unfold inTurn
  simp only [cutOff_of_unheard hunheard]

section
open Script

/-- A host that listens to nothing; its world is a flag. -/
abbrev deaf : Reports (EStateM Unit Bool) := ⟨fun _ => return ()⟩

attribute [local instance] deaf

/-- Cancels, and answers a task that counts on. -/
def raising (u : Int64) : EStateM Unit Bool (Cancellable (EStateM Unit Bool) Int64) := do
  set true
  return .ofValue (u + 10)

theorem raising_regrouped : ∃ left right : Cancellable (EStateM Unit Bool) (Script.El .int),
    (Builder.cancellable (EStateM Unit Bool) Script.El).bindLeft (r := .int) (s := .int)
      (.ofValue 2) raising (fun u : Int64 => return .ofValue (u + 1)) = pure left ∧
    (Builder.cancellable (EStateM Unit Bool) Script.El).bindRight (r := .int) (s := .int)
      (.ofValue 2) raising (fun u : Int64 => return .ofValue (u + 1)) = pure right ∧
    left.run (.reading id) false = .ok ⟨2, true⟩ true ∧
    right.run (.reading id) false = .ok ⟨2, true⟩ true ∧
    left.run (.reading id) = right.run (.reading id) := by
  obtain ⟨left, right, hleft, hright, hruns⟩ :=
    @regroup_live Ty Script.El .int _ _ Unit Bool _ (.ofValue 2) raising
      fun u => return .ofValue (u + 1)
  obtain ⟨hl, hr, heq⟩ := hruns id
  refine ⟨left, right, hleft, hright, ?_, ?_, heq fun _ => rfl⟩
  · rw [hl]; rfl
  · rw [hr]; rfl

end

/-! ## Over several types -/

/-- A value that is carried to another type on the way is lost, unless there is nothing to lose. -/
theorem carry_detour (u : El r) :
    (carry (carry u : El s) : El t) = carry u ↔ (r = t → s ≠ r → carry u = (default : El t)) := by
  by_cases hrs : r = s
  · subst hrs
    rw [carry_self]
    exact ⟨fun _ _ h => absurd rfl h, fun _ => rfl⟩
  · rw [carry_of_ne hrs, carry_default]
    by_cases hrt : r = t
    · exact ⟨fun h _ _ => h.symm, fun h => (h hrt (Ne.symm hrs)).symm⟩
    · rw [carry_of_ne hrt]
      exact ⟨fun _ h => absurd h hrt, fun _ => rfl⟩

/-- What a run answers, or the panic with which it ends. -/
def outcome {α : Type} : EStateM.Result ε W α → Except ε α
  | .ok a _ => .ok a
  | .error e _ => .error e

/-- Reporting does not panic. -/
def ReportsSafely (ε W : Type) [Reports (EStateM ε W)] : Prop :=
  ∀ (n : Notice) (w : W), ∃ w' : W, (report n : EStateM ε W Unit) w = .ok () w'

theorem giveUp_of_safe (h : ReportsSafely ε W) (n : Nat) (w : W) :
    ∃ w', (giveUp n : EStateM ε W Unit) w = .ok () w' := by
  induction n generalizing w with
  | zero => exact ⟨w, rfl⟩
  | succ n ih =>
    obtain ⟨w₁, hreport⟩ := h (.observed .inner) w
    obtain ⟨w', hrest⟩ := ih w₁
    exact ⟨w', (bind_of_ok hreport _).trans hrest⟩

theorem outcome_cutOff {α : Type} (h : ReportsSafely ε W) (at_ : Checkpoint) (waiting : Nat) (a : α)
    (w : W) : outcome ((cutOff at_ waiting a : EStateM ε W (Ending α)) w) = .ok ⟨a, true⟩ := by
  obtain ⟨w₁, hreport⟩ := h (.observed at_) w
  obtain ⟨w₂, hrest⟩ := giveUp_of_safe h waiting w₁
  rw [cutOff, bind_of_ok hreport, bind_of_ok hrest]
  rfl

omit [Reports (EStateM ε W)] in
/-- Two courses that part only where a task comes back cancelled. -/
theorem outcome_bind_eq_iff {α β : Type} {F G : Ending α → EStateM ε W (Ending β)} (a b : α → β)
    (hF : ∀ u w, outcome (F ⟨u, true⟩ w) = .ok ⟨a u, true⟩)
    (hG : ∀ u w, outcome (G ⟨u, true⟩ w) = .ok ⟨b u, true⟩)
    (hrest : ∀ u, F ⟨u, false⟩ = G ⟨u, false⟩) (x : EStateM ε W (Ending α)) (w : W) :
    outcome ((x >>= F) w) = outcome ((x >>= G) w) ↔
      ∀ u w', x w = .ok ⟨u, true⟩ w' → a u = b u := by
  show outcome (EStateM.bind x F w) = outcome (EStateM.bind x G w) ↔ _
  unfold EStateM.bind
  cases hx : x w with
  | error e w' =>
    refine ⟨fun _ u _ h => ?_, fun _ => rfl⟩
    cases h
  | ok ending w' =>
    obtain ⟨u, cancelled⟩ := ending
    cases cancelled with
    | false =>
      refine ⟨fun _ v _ h => ?_, fun _ => congrArg outcome (congrFun (hrest u) w')⟩
      cases h
    | true =>
      show outcome (F ⟨u, true⟩ w') = outcome (G ⟨u, true⟩ w') ↔ _
      rw [hF, hG]
      constructor
      · intro h v _ hv
        cases hv
        injection h with h
        injection h
      · intro h
        rw [h u w' rfl]

/-- **When two binds over several types may be regrouped.** Let nobody cancel from outside. From a
world `w` the two groupings answer the same, value and flag, exactly if the first task does not come
back cancelled with a value other than the default, of the type that is asked for in the end, while
its continuation leads through another type. -/
theorem regroup_uncancelled_iff (hsafe : ReportsSafely ε W) (c : Cancellable (EStateM ε W) (El r))
    (f : El r → EStateM ε W (Cancellable (EStateM ε W) (El s)))
    (g : El s → EStateM ε W (Cancellable (EStateM ε W) (El t))) :
    ∃ left right : Cancellable (EStateM ε W) (El t),
      (Builder.cancellable (EStateM ε W) El).bindLeft c f g = pure left ∧
      (Builder.cancellable (EStateM ε W) El).bindRight c f g = pure right ∧
      ∀ w, outcome (left.runUncancelled w) = outcome (right.runUncancelled w) ↔
        ∀ u w', c.runUncancelled w = .ok ⟨u, true⟩ w' → r = t → s ≠ r →
          carry u = (default : El t) := by
  refine ⟨_, _, bindLeft_eq c f g, bindRight_eq c f g, fun w => ?_⟩
  have hl := run_left c f g (Signal.lasting_never (m := EStateM ε W))
  have hr := run_right c f g (Signal.lasting_never (m := EStateM ε W))
  rw [inTurn_never] at hl hr
  unfold runUncancelled at hl hr ⊢
  rw [hl, hr]
  refine Iff.trans (outcome_bind_eq_iff (fun u => carry (carry u : El s)) carry ?_ ?_ ?_ _ w) ?_
  · exact fun u => outcome_cutOff hsafe .inner 1 _
  · exact fun u => outcome_cutOff hsafe .inner 0 _
  · exact fun _ => rfl
  · simp only [carry_detour]

section
open Script

/-- A task that comes back cancelled with a seven. -/
def sevenCut {m : Type → Type} [Monad m] : Cancellable m (Script.El .int) :=
  ⟨fun _ => return ⟨7, true⟩⟩

theorem sevenCut_not_regrouped : ReportsSafely Fault Session ∧
    ∃ left right : Cancellable Act (Script.El .int),
      (Builder.cancellable Act Script.El).bindLeft (s := .text) sevenCut
        (fun _ => return .ofValue "") (fun _ => return .ofValue 0) = pure left ∧
      (Builder.cancellable Act Script.El).bindRight (s := .text) sevenCut
        (fun _ => return .ofValue "") (fun _ => return .ofValue 0) = pure right ∧
      outcome (left.runUncancelled Session.fresh) ≠ outcome (right.runUncancelled Session.fresh) := by
  have hsafe : ReportsSafely Fault Session := fun _ _ => ⟨_, rfl⟩
  obtain ⟨left, right, hleft, hright, hiff⟩ := @regroup_uncancelled_iff Ty Script.El .int .text .int
    _ _ Fault Session _ hsafe sevenCut (fun _ => return .ofValue "") fun _ => return .ofValue 0
  refine ⟨hsafe, left, right, hleft, hright, fun heq => ?_⟩
  have hseven := (hiff Session.fresh).mp heq 7 Session.fresh rfl rfl (by decide)
  exact absurd hseven (by decide)

/-- Grouped to the left the seven is lost on its way through a text; grouped to the right it
stays. -/
theorem detour_loses_seven :
    ∃ left right : Cancellable Act (Script.El .int),
      (Builder.cancellable Act Script.El).bindLeft (s := .text) sevenCut
        (fun _ => return .ofValue "") (fun _ => return .ofValue 0) = pure left ∧
      (Builder.cancellable Act Script.El).bindRight (s := .text) sevenCut
        (fun _ => return .ofValue "") (fun _ => return .ofValue 0) = pure right ∧
      (∃ w, left.runUncancelled Session.fresh = .ok ⟨0, true⟩ w) ∧
      (∃ w, right.runUncancelled Session.fresh = .ok ⟨7, true⟩ w) :=
  ⟨_, _, rfl, rfl, ⟨_, rfl⟩, ⟨_, rfl⟩⟩

end

end Cancellable

end Workflow
