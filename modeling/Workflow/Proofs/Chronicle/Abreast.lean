import Mathlib.Data.List.Forall2
import Workflow.Proofs.Chronicle

/-!
# Two runs abreast

One act is run twice, from worlds that a relation `R` relates. The act keeps abreast if both runs
end in the same way, with the same value or with the same panic, and again in related worlds. That
is all that anybody can tell who cannot tell related worlds apart. Two acts, too, may end alike, as
those do of which one only does more of what up to `R` nobody sees (`Unseen`).

The records of two such runs agree event by event (`Event.Alike`): the same looks with the same
answers, the same notices, and calls of the same closures, from related worlds to related worlds.
`Abreast.bind` puts acts together and `Cancellable.KeepsAbreast.flatMap` tasks; what is asked of the
user code and of the signal is said in terms of the world alone.
-/

namespace Workflow

open Chronicled

variable {ε W α β : Type}

/-- The same value or the same panic, in related worlds. -/
inductive SameEnd (R : W → W → Prop) :
    EStateM.Result ε W α → EStateM.Result ε W α → Prop where
  | ok (a : α) {w w' : W} (h : R w w') : SameEnd R (.ok a w) (.ok a w')
  | error (e : ε) {w w' : W} (h : R w w') : SameEnd R (.error e w) (.error e w')

theorem SameEnd.imp {R S : W → W → Prop} (hRS : ∀ w w', R w w' → S w w')
    {p q : EStateM.Result ε W α} (h : SameEnd R p q) : SameEnd S p q := by
  cases h with
  | ok a h => exact .ok a (hRS _ _ h)
  | error e h => exact .error e (hRS _ _ h)

/-- From related worlds `x` and `y` end alike. -/
def EndAlike (R : W → W → Prop) (x y : EStateM ε W α) : Prop :=
  ∀ w w', R w w' → SameEnd R (x w) (y w')

/-- Runs from related worlds end alike, and `P` holds of every value that a run returns. -/
structure Abreast (R : W → W → Prop) (x : EStateM ε W α) (P : α → Prop) : Prop where
  ends : ∀ w w', R w w' → SameEnd R (x w) (x w')
  returns : ∀ w a w', x w = .ok a w' → P a

namespace Abreast

variable {R : W → W → Prop} {P : α → Prop} {Q : β → Prop} {x : EStateM ε W α}

theorem of_ends (h : ∀ w w', R w w' → SameEnd R (x w) (x w')) : Abreast R x fun _ => True :=
  ⟨h, fun _ _ _ _ => trivial⟩

theorem pure {a : α} (h : P a) : Abreast R (Pure.pure a : EStateM ε W α) P := by
  refine ⟨fun w w' hw => .ok a hw, fun w b w' hb => ?_⟩
  cases hb
  exact h

/-- An act that keeps abreast, in front of two acts that end alike. -/
theorem endAlike_bind {f g : α → EStateM ε W β} (hx : Abreast R x P)
    (h : ∀ a, P a → EndAlike R (f a) (g a)) : EndAlike R (x >>= f) (x >>= g) := by
  intro w w' hw
  show SameEnd R (EStateM.bind x f w) (EStateM.bind x g w')
  unfold EStateM.bind
  generalize hp : x w = p, hq : x w' = q
  have hends : SameEnd R p q := hp ▸ hq ▸ hx.ends w w' hw
  cases hends with
  | ok a hw₁ => exact h a (hx.returns w a _ hp) _ _ hw₁
  | error e hw₁ => exact .error e hw₁

theorem bind {f : α → EStateM ε W β} (hx : Abreast R x P) (hf : ∀ a, P a → Abreast R (f a) Q) :
    Abreast R (x >>= f) Q := by
  constructor
  case ends => exact hx.endAlike_bind fun a ha => (hf a ha).ends
  case returns =>
    intro w b w' hb
    obtain ⟨a, w₁, ha, hrest⟩ := exists_of_bind_ok hb
    exact (hf a (hx.returns w a w₁ ha)).returns w₁ b w' hrest

theorem map {g : α → β} (hx : Abreast R x P) (hg : ∀ a, P a → Q (g a)) :
    Abreast R (g <$> x) Q := by
  rw [map_eq_pure_bind]
  exact hx.bind fun a ha => .pure (hg a ha)

/-- Where every world is related to itself only, everything keeps abreast. -/
theorem of_eq (h : ∀ a, P a) : Abreast Eq x P := by
  refine ⟨fun w w' hw => ?_, fun _ a _ _ => h a⟩
  subst hw
  cases x w with
  | ok a w₁ => exact .ok a rfl
  | error e w₁ => exact .error e rfl

end Abreast

/-! ## Acts that nobody sees -/

section
variable {R : W → W → Prop} {x y : EStateM ε W α} {a : α}

theorem EndAlike.pure (a : α) : EndAlike R (Pure.pure a : EStateM ε W α) (Pure.pure a) :=
  fun _ _ hw => .ok a hw

theorem EndAlike.eq (h : EndAlike Eq x y) : x = y := by
  funext w
  have hends := h w w rfl
  generalize x w = p, y w = q at hends
  cases hends with
  | ok a hw => rw [hw]
  | error e hw => rw [hw]

/-- The act answers `a`, and up to `R` nobody sees that it does anything else. -/
def Unseen (R : W → W → Prop) (x : EStateM ε W α) (a : α) : Prop :=
  ∀ w w', R w w' → ∃ w₁, x w = .ok a w₁ ∧ R w₁ w'

theorem Unseen.of_eq (h : ∀ w, x w = .ok a w) : Unseen Eq x a :=
  fun w _ hw => ⟨w, h w, hw⟩

/-- In front of what ends alike, such an act makes no difference. -/
theorem Unseen.in_front {f : α → EStateM ε W β} {y : EStateM ε W β} (hx : Unseen R x a)
    (h : EndAlike R (f a) y) : EndAlike R (x >>= f) y := by
  intro w w' hw
  obtain ⟨w₁, hok, hw₁⟩ := hx w w' hw
  rw [bind_of_ok hok]
  exact h w₁ w' hw₁

/-- A look that finds nothing. -/
theorem Unseen.look {signal : Signal (EStateM ε W)} (h : Unseen R signal.poll false)
    {stopped : EStateM ε W α} (hxy : EndAlike R x y) :
    EndAlike R (do if ← signal.poll then stopped else x) y :=
  h.in_front hxy

end

/-! ## Records that agree -/

/-- Calls of one closure, from related worlds to related worlds, with the same panic, if any. -/
structure Call.Alike (R : W → W → Prop) (call call' : Call ε W) : Prop where
  closure : call.closure = call'.closure
  before : R call.before call'.before
  after : R call.after call'.after
  panic : call.panic = call'.panic

/-- The same event, but for the worlds in which it happened, which are related. -/
inductive Event.Alike (R : W → W → Prop) : Event ε W → Event ε W → Prop where
  | looked (answer : Bool) : Alike R (.looked answer) (.looked answer)
  | called {call call' : Call ε W} (h : call.Alike R call') : Alike R (.called call) (.called call')
  | ran {call call' : Call ε W} (h : call.Alike R call') (cancelled : Bool) :
    Alike R (.ran call cancelled) (.ran call' cancelled)
  | opened : Alike R .opened .opened
  | closed : Alike R .closed .closed
  | noticed (n : Notice) : Alike R (.noticed n) (.noticed n)

/-- Related worlds, and records that agree event by event. -/
structure Chronicle.Alike (R : W → W → Prop) (c c' : Chronicle ε W) : Prop where
  world : R c.world c'.world
  events : List.Forall₂ (Event.Alike R) c.events c'.events

section
variable {R : W → W → Prop}

/-- Records that agree stay so when events that agree are added. -/
theorem Chronicle.Alike.add {c c' : Chronicle ε W} (h : c.Alike R c') {w w' : W} (hw : R w w')
    {event event' : Event ε W} (hevent : event.Alike R event') :
    Chronicle.Alike R ⟨w, c.events ++ [event]⟩ ⟨w', c'.events ++ [event']⟩ :=
  ⟨hw, List.rel_append h.events (.cons hevent .nil)⟩

namespace Abreast

variable {P : α → Prop} {act : EStateM ε W α}

theorem note {event : Event ε W} (h : event.Alike R event) :
    Abreast (Chronicle.Alike R) (Chronicled.note event) fun _ => True :=
  .of_ends fun _ _ hc => .ok () (hc.add hc.world h)

theorem quietly (h : Abreast R act P) :
    Abreast (Chronicle.Alike R) (Chronicled.quietly act) P := by
  constructor
  case ends =>
    intro c c' hc
    unfold Chronicled.quietly
    have hends := h.ends _ _ hc.world
    generalize act c.world = p, act c'.world = q at hends
    cases hends with
    | ok a hw => exact .ok a ⟨hw, hc.events⟩
    | error e hw => exact .error e ⟨hw, hc.events⟩
  case returns =>
    intro c a c' ha
    unfold Chronicled.quietly at ha
    split at ha
    · rename_i hact
      cases ha
      exact h.returns _ _ _ hact
    · cases ha

theorem performing (closure : Nat) {entry : Call ε W → Option α → Event ε W}
    (hentry : ∀ {call call'} result, call.Alike R call' →
      (entry call result).Alike R (entry call' result)) (h : Abreast R act fun _ => True) :
    Abreast (Chronicle.Alike R) (Chronicled.performing closure entry act) fun _ => True := by
  refine .of_ends fun c c' hc => ?_
  unfold Chronicled.performing
  have hends := h.ends _ _ hc.world
  generalize act c.world = p, act c'.world = q at hends
  cases hends with
  | ok a hw => exact .ok a (hc.add hw (hentry _ ⟨rfl, hc.world, hw, rfl⟩))
  | error e hw => exact .error e (hc.add hw (hentry _ ⟨rfl, hc.world, hw, rfl⟩))

theorem calling (closure : Nat) (h : Abreast R act fun _ => True) :
    Abreast (Chronicle.Alike R) (Chronicled.calling closure act) fun _ => True :=
  h.performing closure fun _ hcall => .called hcall

end Abreast

/-! ## Tasks that keep abreast -/

/-- What the library does to the world by itself: asking the signal and reporting. Neither parts two
runs. -/
structure Undivided [Reports (EStateM ε W)] (R : W → W → Prop) (signal : Signal (EStateM ε W)) :
    Prop where
  poll : Abreast R signal.poll fun _ => True
  report : ∀ n : Notice, Abreast R (Reports.report n : EStateM ε W Unit) fun _ => True

/-- Runs of `c` under the signal keep abreast. -/
def Cancellable.KeepsAbreast (R : W → W → Prop) (signal : Signal (EStateM ε W))
    (c : Cancellable (Chronicled ε W) α) : Prop :=
  Abreast (Chronicle.Alike R) (c.run signal.chronicled) fun _ => True

namespace Cancellable.KeepsAbreast

variable {signal : Signal (EStateM ε W)}

theorem ofValue (a : α) : (Cancellable.ofValue a).KeepsAbreast R signal := .pure trivial

theorem delay (closure : Nat) {work : EStateM ε W α} (h : Abreast R work fun _ => True) :
    (Cancellable.delay (Chronicled.calling closure work)).KeepsAbreast R signal :=
  (h.calling closure).bind fun _ _ => .pure trivial

theorem leaf (closure : Nat) {f : Signal (EStateM ε W) → EStateM ε W (Ending α)}
    (h : Abreast R (f signal) fun _ => True) :
    (Cancellable.leaf closure f).KeepsAbreast R signal := by
  show Abreast _ ((Cancellable.leaf closure f).run signal.chronicled) _
  rw [run_leaf, Signal.bare_chronicled]
  exact h.performing closure fun _ hcall => .ran hcall _

theorem bound {c : Cancellable (Chronicled ε W) α} (h : c.KeepsAbreast R signal) :
    c.bound.KeepsAbreast R signal :=
  (Abreast.note .opened).bind fun _ _ => Abreast.bind h fun _ _ =>
    (Abreast.note .closed).bind fun _ _ => .pure trivial

variable [Reports (EStateM ε W)] (hlib : Undivided R signal)
include hlib

theorem report (n : Notice) :
    Abreast (Chronicle.Alike R) (Reports.report n : Chronicled ε W Unit) fun _ => True :=
  (Abreast.note (.noticed n)).bind fun _ _ => (hlib.report n).quietly

theorem stop (at_ : Checkpoint) (a : α) :
    Abreast (Chronicle.Alike R)
      (Cancellable.stop at_ a : Chronicled ε W (Ending α)) fun _ => True :=
  (report hlib _).bind fun _ _ => .pure trivial

/-- A look, and what each answer leads to. -/
theorem checkpoint {x y : Chronicled ε W (Ending α)}
    (hx : Abreast (Chronicle.Alike R) x fun _ => True)
    (hy : Abreast (Chronicle.Alike R) y fun _ => True) :
    Abreast (Chronicle.Alike R)
      (signal.chronicled.poll >>= fun answer => if answer then x else y) fun _ => True := by
  have hlook : Abreast (Chronicle.Alike R) signal.chronicled.poll fun _ => True :=
    hlib.poll.quietly.bind fun answer _ =>
      (Abreast.note (.looked answer)).bind fun _ _ => .pure trivial
  refine hlook.bind fun answer _ => ?_
  cases answer with
  | true => exact hx
  | false => exact hy

variable {ι : Type} [DecidableEq ι] {El : ι → Type} [∀ t, Inhabited (El t)] {s t : ι}

theorem flatMap {c : Cancellable (Chronicled ε W) (El s)}
    {k : El s → Chronicled ε W (Cancellable (Chronicled ε W) (El t))} (h : c.KeepsAbreast R signal)
    (hk : ∀ u, Abreast (Chronicle.Alike R) (k u) (KeepsAbreast R signal)) :
    (c.flatMap k).KeepsAbreast R signal := by
  show Abreast _ ((c.flatMap k).run signal.chronicled) _
  rw [run_flatMap]
  refine checkpoint hlib (stop hlib _ _) (Abreast.bind h fun ending _ => ?_)
  split
  · exact stop hlib _ _
  refine checkpoint hlib (stop hlib _ _) ((hk ending.value).bind fun next hnext => ?_)
  exact checkpoint hlib (stop hlib _ _) hnext

end Cancellable.KeepsAbreast

end

end Workflow
