import Workflow.Signal

/-!
# Signals that keep their answer

While a run looks at a signal twice and does nothing in between, most signals answer the same both
times: tokens, sources and flags are parts of the world, and only user code changes them. `reading`
is such a signal, and `Lasting` is what a run makes use of: after the answer `false` a second look is
idle (`lasting_reading`). Scripts of answers are not lasting.

A signal may also leave a mark when it is asked, as one does that is watched, and still tell what a
part of the world says, which asking leaves alone (`Tells`).
-/

namespace Workflow.Signal

/-- Who looks again, right after the answer `false`, gets the answer `false` again, and nothing else
happens. -/
def Lasting {m : Type → Type} [Monad m] (signal : Signal m) : Prop :=
  ∀ ⦃α : Type⦄ (x y z : m α),
    (do if ← signal.poll then x else if ← signal.poll then y else z) =
      do if ← signal.poll then x else z

theorem lasting_never {m : Type → Type} [Monad m] [LawfulMonad m] :
    (never : Signal m).Lasting := by
  intro α x y z
  simp [never, constant]

variable {ε W α : Type}

/-- A signal that is a part of the world: only acts that change the world change its answer. -/
def reading (asked : W → Bool) : Signal (EStateM ε W) := ⟨fun w => .ok (asked w) w⟩

/-- A look leads to the one branch or to the other, in the same world. -/
theorem look_reading (asked : W → Bool) (x y : EStateM ε W α) (w : W) :
    (do if ← (reading asked).poll then x else y : EStateM ε W α) w =
      if asked w then x w else y w := by
  show (if asked w = true then x else y) w = _
  split <;> rfl

theorem lasting_reading (asked : W → Bool) :
    (reading asked : Signal (EStateM ε W)).Lasting := by
  intro α x y z
  funext w
  rw [look_reading, look_reading, look_reading]
  cases asked w <;> rfl

/-- The signal answers what `asked` says of the world, and asking does not change what it says. -/
def Tells (signal : Signal (EStateM ε W)) (asked : W → Bool) : Prop :=
  ∀ w, ∃ w', signal.poll w = .ok (asked w) w' ∧ asked w' = asked w

theorem tells_reading (asked : W → Bool) : (reading asked : Signal (EStateM ε W)).Tells asked :=
  fun w => ⟨w, rfl, rfl⟩

variable {signal : Signal (EStateM ε W)} {asked : W → Bool}

/-- A look leads to the one branch or to the other, in a world that says the same. -/
theorem Tells.look (h : signal.Tells asked) (x y : EStateM ε W α) (w : W) :
    ∃ w', asked w' = asked w ∧
      (do if ← signal.poll then x else y : EStateM ε W α) w = if asked w then x w' else y w' := by
  obtain ⟨w', hpoll, hsame⟩ := h w
  refine ⟨w', hsame, ?_⟩
  show EStateM.bind signal.poll (fun answer => if answer = true then x else y) w = _
  unfold EStateM.bind
  rw [hpoll]
  show (if asked w = true then x else y) w' = _
  split <;> rfl

/-- What a run that looked went on with. -/
theorem Tells.cases_look (h : signal.Tells asked) {x y : EStateM ε W α} {w w' : W} {a : α}
    (hrun : (do if ← signal.poll then x else y : EStateM ε W α) w = .ok a w') :
    asked w = true ∧ (∃ w₁, x w₁ = .ok a w') ∨
      asked w = false ∧ ∃ w₁, asked w₁ = false ∧ y w₁ = .ok a w' := by
  obtain ⟨w₁, hsame, hlook⟩ := h.look x y w
  rw [hlook] at hrun
  cases hasked : asked w with
  | true =>
    rw [hasked] at hrun
    exact .inl ⟨rfl, w₁, hrun⟩
  | false =>
    rw [hasked] at hsame hrun
    exact .inr ⟨rfl, w₁, hsame, hrun⟩

end Workflow.Signal
