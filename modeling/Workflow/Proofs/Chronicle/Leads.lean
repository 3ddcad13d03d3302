import Workflow.Proofs.Chronicle.Adds

/-!
# Following a run from one world to the next

`Leads` says that a run comes from one world to another, that its record shows certain events on the
way, and what it does from there on. One lemma for each kind of act takes a step at the front: a
look (`Leads.look`), any act that leaves one event (`Leads.act`), and a panic, after which nothing
is left to be done (`Leads.panics`). Tasks that are sealed are such acts
(`Cancellable.run_sealed_of_ok`).
-/

namespace Workflow

open Chronicled

variable {ε W α β : Type}

/-- From `w`, the run `x` comes to `w'` and goes on as `y`. So does the recorded run `x'`, as `y'`,
and its record shows `events` on the way. -/
structure Leads (x' : Chronicled ε W α) (x : EStateM ε W α) (w : W) (events : List (Event ε W))
    (w' : W) (y' : Chronicled ε W α) (y : EStateM ε W α) : Prop where
  goes : x w = y w'
  shows (before : List (Event ε W)) : x' ⟨w, before⟩ = y' ⟨w', before ++ events⟩

namespace Leads

variable {x' y' : Chronicled ε W α} {x y : EStateM ε W α} {w w' w'' : W}
  {events : List (Event ε W)}

theorem here (x' : Chronicled ε W α) (x : EStateM ε W α) (w : W) : Leads x' x w [] w x' x where
  goes := rfl
  shows before := by rw [List.append_nil]

/-- An act that leaves one event, in front of a run. -/
theorem act {act' : Chronicled ε W β} {act : EStateM ε W β} {k' : β → Chronicled ε W α}
    {k : β → EStateM ε W α} {b : β} {event : Event ε W} (hact : act w = .ok b w')
    (hact' : ∀ before, act' ⟨w, before⟩ = .ok b ⟨w', before ++ [event]⟩)
    (h : Leads (k' b) (k b) w' events w'' y' y) :
    Leads (act' >>= k') (act >>= k) w (event :: events) w'' y' y where
  goes := (bind_of_ok hact k).trans h.goes
  shows before := by
    rw [bind_of_ok (hact' before), h.shows, List.append_assoc]
    rfl

theorem panics {act' : Chronicled ε W β} {act : EStateM ε W β} {k' : β → Chronicled ε W α}
    {k : β → EStateM ε W α} {e : ε} {event : Event ε W} (hact : act w = .error e w')
    (hact' : ∀ before, act' ⟨w, before⟩ = .error e ⟨w', before ++ [event]⟩) :
    Leads (act' >>= k') (act >>= k) w [event] w' (throw e) (throw e) where
  goes := bind_of_error hact k
  shows before := bind_of_error (hact' before) k'

/-- A look, and the branch that its answer leads to. -/
theorem look {signal : Signal (EStateM ε W)} {a' b' : Chronicled ε W α} {a b : EStateM ε W α}
    {answer : Bool} (hpoll : signal.poll w = .ok answer w')
    (h : Leads (if answer then a' else b') (if answer then a else b) w' events w'' y' y) :
    Leads (do if ← signal.chronicled.poll then a' else b') (do if ← signal.poll then a else b)
      w (.looked answer :: events) w'' y' y := by
  refine .act hpoll (fun before => ?_) h
  show EStateM.bind (quietly signal.poll) _ _ = _
  unfold EStateM.bind quietly
  rw [hpoll]
  rfl

end Leads

/-! ## Tasks that leave one event -/

namespace Cancellable

variable {c : Cancellable (EStateM ε W) α} {signal : Signal (EStateM ε W)} {w w' : W}

theorem run_sealed_of_ok {ending : Ending α} (h : c.run signal w = .ok ending w') (i : Nat)
    (before : List (Event ε W)) : (c.sealed i).run signal.chronicled ⟨w, before⟩ =
      .ok ending ⟨w', before ++ [.ran ⟨i, w, w', none⟩ ending.cancelled]⟩ := by
  rw [sealed, run_leaf, Signal.bare_chronicled]
  exact performing_of_ok h i _ before

theorem run_sealed_of_error {e : ε} (h : c.run signal w = .error e w') (i : Nat)
    (before : List (Event ε W)) : (c.sealed i).run signal.chronicled ⟨w, before⟩ =
      .error e ⟨w', before ++ [.ran ⟨i, w, w', some e⟩ false]⟩ := by
  rw [sealed, run_leaf, Signal.bare_chronicled]
  exact performing_of_error h i _ before

end Cancellable

end Workflow
