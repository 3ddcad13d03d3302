import Workflow.Proofs.TaskTree
import Workflow.Script.Kind
import Workflow.Script.Session

/-!
# Cancelling earlier only cuts a run short

One task is run twice from the same world, under two signals that give their answers in turn: `a`,
and `b`, which says `true` wherever `a` does and perhaps earlier. User code cannot reach the signals
(they live in the record, not in the world), and no leaf looks at its signal (`TaskTree.Blind`).

The two runs stay in step, record for record, until `b` answers `true` for the first time. From then
on the run with `b` calls no user code, while the record of the run with `a` can only grow.
`Follows` says this of two acts, and `Follows.bind` is the one place where two runs are put together
from their parts; `build_lockstep` is the induction over the tree. The result is
`earlier_cuts_short`.
-/

namespace Workflow

open Chronicled

variable {ε W α β : Type}

/-- The record at the end, panic or not. -/
def recordAfter : EStateM.Result ε (Chronicle ε W) α → List (Event ε W)
  | .ok _ c => c.events
  | .error _ c => c.events

/-! ## Acts that only add to the record, and acts that call no user code -/

/-- What is recorded stays recorded. -/
def Grows (x : Chronicled ε W α) : Prop := ∀ c, c.events <+: recordAfter (x c)

/-- `x` calls no user code. -/
def Idle (x : Chronicled ε W α) : Prop := ∀ c, calls (recordAfter (x c)) = calls c.events

/-- `x` adds to the record and prepares a value, of which `P` holds. -/
structure Prepares (x : Chronicled ε W α) (P : α → Prop) : Prop where
  grows : Grows x
  returns : ∀ c a c', x c = .ok a c' → P a

theorem calls_concat (events : List (Event ε W)) {event : Event ε W} (h : event.call? = none) :
    calls (events ++ [event]) = calls events := by
  simp [calls, h]

theorem Grows.bind {x : Chronicled ε W α} {f : α → Chronicled ε W β} {P : α → Prop}
    (hx : Prepares x P) (hf : ∀ a, P a → Grows (f a)) : Grows (x >>= f) := by
  intro c
  show c.events <+: recordAfter (EStateM.bind x f c)
  have hc := hx.grows c
  unfold EStateM.bind
  cases h : x c with
  | ok a c' =>
    rw [h] at hc
    exact hc.trans (hf a (hx.returns c a c' h) c')
  | error e c' =>
    rw [h] at hc
    exact hc

namespace Idle

theorem pure (a : α) : Idle (Pure.pure a : Chronicled ε W α) := fun _ => rfl

theorem bind {x : Chronicled ε W α} {f : α → Chronicled ε W β} (hx : Idle x)
    (hf : ∀ a, Idle (f a)) : Idle (x >>= f) := by
  intro c
  show calls (recordAfter (EStateM.bind x f c)) = calls c.events
  have hc := hx c
  unfold EStateM.bind
  cases h : x c with
  | ok a c' =>
    rw [h] at hc
    exact (hf a c').trans hc
  | error e c' =>
    rw [h] at hc
    exact hc

theorem note {event : Event ε W} (h : event.call? = none) : Idle (note event) :=
  fun c => calls_concat c.events h

theorem quietly (act : EStateM ε W α) : Idle (quietly act) := by
  intro c
  unfold Chronicled.quietly
  cases act c.world <;> rfl

theorem report [Reports (EStateM ε W)] (n : Notice) :
    Idle (Reports.report n : Chronicled ε W Unit) := (note rfl).bind fun _ => quietly _

end Idle

namespace Prepares

variable {P : α → Prop} {Q : β → Prop} {x : Chronicled ε W α} {f : α → Chronicled ε W β}

theorem of_grows (h : Grows x) : Prepares x fun _ => True := ⟨h, fun _ _ _ _ => trivial⟩

theorem pure {a : α} (h : P a) : Prepares (Pure.pure a : Chronicled ε W α) P := by
  refine ⟨fun _ => List.prefix_rfl, fun c b c' hb => ?_⟩
  cases hb
  exact h

theorem bind (hx : Prepares x P) (hf : ∀ a, P a → Prepares (f a) Q) : Prepares (x >>= f) Q := by
  refine ⟨Grows.bind hx fun a ha => (hf a ha).grows, fun c b c' hb => ?_⟩
  obtain ⟨a, c₁, ha, hf'⟩ := exists_of_bind_ok hb
  exact (hf a (hx.returns c a c₁ ha)).returns c₁ b c' hf'

theorem map {g : α → β} (hx : Prepares x P) (hg : ∀ a, P a → Q (g a)) : Prepares (g <$> x) Q := by
  rw [map_eq_pure_bind]
  exact hx.bind fun a ha => .pure (hg a ha)

theorem note (event : Event ε W) : Prepares (note event) fun _ => True :=
  of_grows fun _ => List.prefix_append _ _

theorem quietly (act : EStateM ε W α) : Prepares (quietly act) fun _ => True := by
  refine of_grows fun c => ?_
  unfold Chronicled.quietly
  cases act c.world <;> exact List.prefix_rfl

theorem performing (closure : Nat) (entry : Call ε W → Option α → Event ε W)
    (act : EStateM ε W α) : Prepares (performing closure entry act) fun _ => True := by
  refine of_grows fun c => ?_
  unfold Chronicled.performing
  cases act c.world <;> exact List.prefix_append _ _

theorem report [Reports (EStateM ε W)] (n : Notice) :
    Prepares (Reports.report n : Chronicled ε W Unit) fun _ => True :=
  (note _).bind fun _ _ => quietly _

/-- Whether a task came back cancelled. -/
abbrev CutShort (ending : Ending α) : Prop := ending.cancelled = true

theorem stop [Reports (EStateM ε W)] (at_ : Checkpoint) (a : α) :
    Prepares (Cancellable.stop at_ a : Chronicled ε W (Ending α)) CutShort :=
  (report _).bind fun _ _ => .pure rfl

end Prepares

open Prepares (CutShort)

/-! ## One act in the steps of another -/

/-- `q` is the outcome of a run that has seen the signal and been cut off by it; `p` is that of the
run that it followed. -/
structure CutOff (stops : α → Prop) (p q : EStateM.Result ε (Chronicle ε W) α) : Prop where
  stopped : ∀ a c, q = .ok a c → stops a
  seen : true ∈ looks (recordAfter q)
  calls : calls (recordAfter q) <+: calls (recordAfter p)

/-- `y` does what `x` does, or is cut off on the way with a result that `stops` what comes next. -/
structure Follows (stops : α → Prop) (x y : Chronicled ε W α) : Prop where
  grows : Grows x
  step : ∀ c, x c = y c ∨ CutOff stops (x c) (y c)

namespace Follows

variable {stops : α → Prop} {stops' : β → Prop} {x y : Chronicled ε W α}
  {f g : α → Chronicled ε W β}

theorem refl (h : Grows x) : Follows stops x x := ⟨h, fun _ => .inl rfl⟩

theorem bind {P : α → Prop} (h : Follows stops x y) (hP : ∀ c a c', x c = .ok a c' → P a)
    (hfg : ∀ a, P a → Follows stops' (f a) (g a))
    (hstop : ∀ a, stops a → Idle (g a) ∧ Prepares (g a) stops') :
    Follows stops' (x >>= f) (y >>= g) := by
  refine ⟨Grows.bind ⟨h.grows, hP⟩ fun a ha => (hfg a ha).grows, fun c => ?_⟩
  show EStateM.bind x f c = EStateM.bind y g c ∨
    CutOff stops' (EStateM.bind x f c) (EStateM.bind y g c)
  rcases h.step c with heq | ⟨stopped, seen, hcalls⟩
  · unfold EStateM.bind
    rw [← heq]
    cases hx : x c with
    | ok a c' => exact (hfg a (hP c a c' hx)).step c'
    | error e c' => exact .inl rfl
  · right
    -- the run in front may go on, and its record grows; the other one only comes to its end
    have hahead : calls (recordAfter (x c)) <+: calls (recordAfter (EStateM.bind x f c)) := by
      unfold EStateM.bind
      cases hx : x c with
      | ok a c' => exact ((hfg a (hP c a c' hx)).grows c').filterMap _
      | error e c' => exact List.prefix_rfl
    generalize EStateM.bind x f c = p at hahead ⊢
    unfold EStateM.bind
    cases hy : y c with
    | ok a c' =>
      rw [hy] at stopped seen hcalls
      obtain ⟨hidle, hends⟩ := hstop a (stopped a c' rfl)
      refine ⟨hends.returns c', ((hends.grows c').filterMap _).subset seen, ?_⟩
      rw [hidle c']
      exact hcalls.trans hahead
    | error e c' =>
      rw [hy] at seen hcalls
      exact ⟨nofun, seen, hcalls.trans hahead⟩

/-- The same act in front of both. -/
theorem after {P : α → Prop} (hx : Prepares x P) (hfg : ∀ a, P a → Follows stops' (f a) (g a)) :
    Follows stops' (x >>= f) (x >>= g) := by
  have hsame : Follows (fun _ => False) x x := refl hx.grows
  exact hsame.bind hx.returns hfg nofun

/-- Two acts in step, and after both of them the same. -/
theorem before {z : α → Chronicled ε W β} (h : Follows stops x y) (hz : ∀ a, Grows (z a))
    (hstop : ∀ a, stops a → Idle (z a) ∧ Prepares (z a) stops') :
    Follows stops' (x >>= z) (y >>= z) :=
  h.bind (P := fun _ => True) (fun _ _ _ _ => trivial) (fun a _ => refl (hz a)) hstop

end Follows

/-! ## Tasks in step -/

variable {a b : Nat → Bool}

/-- The later signal and the earlier one: they agree, or the earlier one says `true`. -/
theorem Follows.poll (hab : ∀ n, a n ≤ b n) :
    Follows (fun answer => answer = true) (Signal.answering a : Signal (Chronicled ε W)).poll
      (Signal.answering b).poll := by
  refine ⟨fun _ => List.prefix_append _ _, fun c => ?_⟩
  by_cases h : a (looks c.events).length = b (looks c.events).length
  · left
    show EStateM.Result.ok (a (looks c.events).length) _ = .ok (b (looks c.events).length) _
    rw [h]
  · right
    have hle := hab (looks c.events).length
    have hb : b (looks c.events).length = true := by
      cases hb : b (looks c.events).length with
      | true => rfl
      | false =>
        rw [hb] at h hle
        exact absurd (Bool.eq_false_of_le_false hle) h
    refine ⟨fun answer c' h' => ?_, ?_, ?_⟩
    · cases h'
      exact hb
    · show true ∈ looks (c.events ++ [.looked (b (looks c.events).length)])
      rw [hb]
      simp [looks, Event.look?]
    · have hcalls (answer : Bool) : calls (c.events ++ [.looked answer]) = calls c.events :=
        calls_concat c.events rfl
      exact ⟨[], by rw [List.append_nil]; exact (hcalls _).trans (hcalls _).symm⟩

/-- The run of a task under a signal that gives the answers in turn. -/
def Cancellable.under (c : Cancellable (Chronicled ε W) α) (answers : Nat → Bool) (w : W) :
    EStateM.Result ε (Chronicle ε W) (Ending α) := c.run (.answering answers) ⟨w, []⟩

theorem Cancellable.under_false (c : Cancellable (Chronicled ε W) α) (w : W) :
    c.under (fun _ => false) w = c.run (Signal.never : Signal (EStateM ε W)).chronicled ⟨w, []⟩ :=
  rfl

/-- Under `a` and under `b` the task runs in step, until `b` cuts it off. -/
def Lockstep (a b : Nat → Bool) (c : Cancellable (Chronicled ε W) α) : Prop :=
  Follows CutShort (c.run (.answering a)) (c.run (.answering b))

/-- A run that does not depend on the signal. -/
theorem Lockstep.of_run {c : Cancellable (Chronicled ε W) α} {x : Chronicled ε W (Ending α)}
    (hx : Grows x) (ha : c.run (.answering a) = x) (hb : c.run (.answering b) = x) :
    Lockstep a b c := by
  unfold Lockstep
  rw [ha, hb]
  exact .refl hx

theorem Lockstep.calls_within {c : Cancellable (Chronicled ε W) α} (h : Lockstep a b c)
    (w : W) : calls (recordAfter (c.under b w)) <+: calls (recordAfter (c.under a w)) := by
  unfold Cancellable.under
  rcases h.step ⟨w, []⟩ with heq | hcut
  · exact ⟨[], by rw [heq, List.append_nil]⟩
  · exact hcut.calls

theorem Lockstep.eq_of_unseen {c : Cancellable (Chronicled ε W) α} (h : Lockstep a b c)
    (w : W) (hunseen : ∀ answer ∈ looks (recordAfter (c.under b w)), answer = false) :
    c.under b w = c.under a w := by
  rcases h.step ⟨w, []⟩ with heq | hcut
  · exact heq.symm
  · exact absurd (hunseen true hcut.seen) nofun

theorem Lockstep.bound {c : Cancellable (Chronicled ε W) α} (h : Lockstep a b c) :
    Lockstep a b c.bound := by
  refine Follows.after (Prepares.note .opened) fun _ _ => ?_
  refine Follows.before h ?_ fun ending hstop => ⟨?_, ?_⟩
  · exact fun ending =>
      ((Prepares.note .closed).bind (Q := fun _ => True) fun _ _ => .pure trivial).grows
  · exact (Idle.note rfl).bind fun _ => .pure ending
  · exact (Prepares.note .closed).bind fun _ _ => .pure hstop

section
variable [Reports (EStateM ε W)]

theorem idle_stop (at_ : Checkpoint) (v : α) :
    Idle (Cancellable.stop at_ v : Chronicled ε W (Ending α)) :=
  (Idle.report _).bind fun _ => .pure _

/-- A checkpoint under both signals. -/
theorem Follows.checkpoint (hab : ∀ n, a n ≤ b n) {at_ : Checkpoint} {v : α}
    {x y : Chronicled ε W (Ending α)} (h : Follows CutShort x y) :
    Follows CutShort
      ((Signal.answering a).poll >>= fun answer => if answer then Cancellable.stop at_ v else x)
      ((Signal.answering b).poll >>= fun answer =>
        if answer then Cancellable.stop at_ v else y) := by
  refine (Follows.poll hab).bind (P := fun _ => True) (fun _ _ _ _ => trivial) ?_ ?_
  · intro answer _
    cases answer with
    | true => exact .refl (Prepares.stop at_ v).grows
    | false => exact h
  · intro answer hanswer
    subst hanswer
    exact ⟨idle_stop at_ v, Prepares.stop at_ v⟩

variable {ι : Type} [DecidableEq ι] {El : ι → Type} [∀ t, Inhabited (El t)] {s t : ι}

theorem Lockstep.flatMap (hab : ∀ n, a n ≤ b n) {c : Cancellable (Chronicled ε W) (El s)}
    {k : El s → Chronicled ε W (Cancellable (Chronicled ε W) (El t))} (h : Lockstep a b c)
    (hk : ∀ u, Prepares (k u) (Lockstep a b)) : Lockstep a b (c.bound.flatMap k) := by
  unfold Lockstep
  rw [Cancellable.run_flatMap, Cancellable.run_flatMap]
  refine Follows.checkpoint hab (h.bound.bind (P := fun _ => True) (fun _ _ _ _ => trivial) ?_ ?_)
  · intro ending _
    split
    · exact .refl (Prepares.stop _ _).grows
    refine Follows.checkpoint hab (Follows.after (hk ending.value) fun next hnext => ?_)
    exact Follows.checkpoint hab hnext
  · intro ending hstop
    rw [if_pos hstop]
    exact ⟨idle_stop _ _, Prepares.stop _ _⟩

end

/-! ## Task trees -/

/-- No leaf looks at its signal. -/
def TaskTree.Blind {ι : Type} {El : ι → Type} : {t : ι} → TaskTree ε W El t → Prop
  | _, .pure _ | _, .zero | _, .delay _ _ => True
  | _, .own _ f => ∀ signal signal', f signal = f signal'
  | _, .bind c _ _ next => c.Blind ∧ ∀ x, (next x).Blind
  | _, .map c _ _ => c.Blind
  | _, .andThen first second => first.Blind ∧ second.Blind
  | _, .sequencer _ next start _ _ => start.Blind ∧ ∀ x, (next x).Blind

namespace TaskTree

theorem lockstep_ofValue (u : α) :
    Lockstep a b (Cancellable.ofValue u : Cancellable (Chronicled ε W) α) :=
  .of_run (Prepares.pure (P := fun _ => True) trivial).grows rfl rfl

theorem prepares_calling (closure : Nat) (act : EStateM ε W α) :
    Prepares (Setting.chronicled.call closure act) fun _ => True :=
  Prepares.performing closure (fun call _ => .called call) act

variable [Reports (EStateM ε W)] {ι : Type} [DecidableEq ι] {El : ι → Type}
  [∀ t, Inhabited (El t)] {t : ι}

theorem continuation_lockstep (hab : ∀ n, a n ≤ b n) {κ : Type}
    {next : κ → Chronicled ε W (Cancellable (Chronicled ε W) (El t))}
    (hnext : ∀ x, Prepares (next x) (Lockstep a b)) (closure : Nat)
    (finish : El t → EStateM ε W (El t)) (steps : List (Nat × (El t → EStateM ε W κ))) (u : El t) :
    Prepares ((⟨steps.map (record .chronicled next)⟩ :
      Sequencer (Builder.cancellable _ El) t).continuation
        (fun u => Setting.chronicled.call closure (finish u)) u) (Lockstep a b) := by
  induction steps generalizing u with
  | nil => exact (prepares_calling closure (finish u)).map fun v _ => lockstep_ofValue v
  | cons step steps ih =>
    refine Prepares.bind (P := fun c => ∃ d : Cancellable (Chronicled ε W) (El t),
      Lockstep a b d ∧ c = d.bound) ?_ ?_
    · refine (prepares_calling step.1 (step.2 u)).bind fun x _ => ?_
      exact (hnext x).map fun c hc => ⟨c, hc, rfl⟩
    · intro c hc
      obtain ⟨d, hd, rfl⟩ := hc
      exact .pure (hd.flatMap hab ih)

theorem build_lockstep (hab : ∀ n, a n ≤ b n) (tree : TaskTree ε W El t) (hblind : tree.Blind) :
    Prepares (tree.build .chronicled) (Lockstep a b) := by
  induction tree with
  | pure u => exact .pure (lockstep_ofValue u)
  | zero => exact .pure (lockstep_ofValue default)
  | delay closure work =>
    refine .pure (.of_run ?_ rfl rfl)
    exact ((prepares_calling closure work).bind (Q := fun _ => True) fun _ _ => .pure trivial).grows
  | own closure f =>
    refine .pure (.of_run ?_ (Cancellable.run_leaf closure f _) ?_)
    · exact (Prepares.performing closure _ _).grows
    · rw [hblind (Signal.bare (.answering a)) (Signal.bare (.answering b))]
      exact Cancellable.run_leaf closure f _
  | bind c closure k next ihc ihnext =>
    refine (ihc hblind.1).bind fun c hc => .pure (hc.flatMap hab fun u => ?_)
    exact (prepares_calling closure (k u)).bind fun x _ => ihnext x (hblind.2 x)
  | map c closure f ihc =>
    refine (ihc hblind).bind fun c hc => .pure (hc.flatMap hab fun u => ?_)
    exact (prepares_calling closure (f u)).map fun v _ => lockstep_ofValue v
  | andThen first second ih₁ ih₂ =>
    refine (ih₁ hblind.1).bind fun c hc => (ih₂ hblind.2).bind fun d hd => ?_
    exact .pure (hc.flatMap hab fun _ => .pure hd)
  | sequencer steps next start closure finish ihnext ihstart =>
    refine (ihstart hblind.1).bind fun c hc => ?_
    rw [build_recorded]
    refine (Prepares.report _).bind fun _ _ => .pure (hc.flatMap hab ?_)
    exact continuation_lockstep hab (fun x => ihnext x (hblind.2 x)) closure finish steps

/-- **Cancelling earlier only cuts the run short.** Let a task be made of a tree whose leaves do not
look at their signal, and let `b` answer `true` wherever `a` does. From one world, the calls of user
code that the run under `b` makes, with the worlds before and after them and their panics, are a
prefix of those of the run under `a`; if no checkpoint of the run under `b` gets the answer `true`,
the two runs are the same. The run under no cancellation is the uncancelled run of the task, so the
calls of every run are a prefix of its calls. -/
theorem earlier_cuts_short (tree : TaskTree ε W El t) (hblind : tree.Blind)
    (hab : ∀ n, a n ≤ b n) {d : Cancellable (EStateM ε W) (El t)} {w₀ w₁ : W}
    (hd : tree.build .plain w₀ = .ok d w₁) (w : W) :
    ∃ c built, tree.build .chronicled ⟨w₀, []⟩ = .ok c ⟨w₁, built⟩ ∧
      calls (recordAfter (c.under b w)) <+: calls (recordAfter (c.under a w)) ∧
      ((∀ answer ∈ looks (recordAfter (c.under b w)), answer = false) →
        c.under b w = c.under a w) ∧
      SameOutcome Eq (c.under (fun _ => false) w) (d.runUncancelled w) ∧
      calls (recordAfter (c.under b w)) <+: calls (recordAfter (c.under (fun _ => false) w)) := by
  obtain ⟨c, built, hc, htwins⟩ := tree.build_shadows.exists_record hd []
  have hsteps {a' b' : Nat → Bool} (h : ∀ n, a' n ≤ b' n) : Lockstep a' b' c :=
    (build_lockstep h tree hblind).returns _ _ _ hc
  refine ⟨c, built, hc, (hsteps hab).calls_within w, (hsteps hab).eq_of_unseen w, ?_, ?_⟩
  · rw [Cancellable.under_false]
    exact htwins .never ⟨w, []⟩
  · exact (hsteps fun n => Bool.false_le (b n)).calls_within w

section
open Script

/-- Counts a turn. -/
def turn : Act (Script.El .int) := Act.tick "turns"

/-- A thunk and a continuation that both count a turn. -/
def twoTurns : TaskTree Fault Session Script.El .int :=
  .bind (.delay 0 turn) 1 (fun _ => turn) .pure

theorem twoTurns_cut_short : ∃ c, twoTurns.build .chronicled ⟨Session.fresh, []⟩ =
      .ok c ⟨Session.fresh, []⟩ ∧
    (calls (recordAfter (c.under (fun n => decide (1 ≤ n)) Session.fresh))).length = 1 ∧
    (calls (recordAfter (c.under (fun _ => false) Session.fresh))).length = 2 ∧
    calls (recordAfter (c.under (fun n => decide (1 ≤ n)) Session.fresh)) <+:
      calls (recordAfter (c.under (fun _ => false) Session.fresh)) := by
  have hplain : twoTurns.build .plain Session.fresh = .ok _ Session.fresh := rfl
  have hblind : twoTurns.Blind := ⟨trivial, fun _ => trivial⟩
  have hle (n : Nat) : false ≤ decide (1 ≤ n) := Bool.false_le _
  obtain ⟨c, built, hc, hcalls, -⟩ :=
    twoTurns.earlier_cuts_short hblind hle hplain Session.fresh
  cases hc
  exact ⟨_, rfl, rfl, rfl, hcalls⟩

end

end TaskTree

end Workflow
