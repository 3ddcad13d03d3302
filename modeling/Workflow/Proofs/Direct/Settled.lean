import Workflow.Sequence

/-!
# Answers that do not depend on the world

User code may do what it likes to the world and still answer the same for the same argument, or
panic for the same argument. `Answers x o` says that `x` answers `o` in every world, where `none`
stands for a panic, and a closure is `Settled` if there is such an answer for each of its arguments.

What settled closures come to can be computed without a world, in the host `Option`
(`Answers.flatMap`). There it does not matter in which order two acts are done.
-/

namespace Workflow

variable {ε W α β γ : Type}

/-- What a run answered, unless it panicked. -/
def answer? : EStateM.Result ε W α → Option α
  | .ok a _ => some a
  | .error _ _ => none

/-- In every world `x` answers `o`, or panics in every world if `o` is `none`. -/
def Answers (x : EStateM ε W α) (o : Option α) : Prop := ∀ w, answer? (x w) = o

/-- What the closure answers depends on its argument alone. -/
def Settled (f : α → EStateM ε W β) : Prop := ∃ F : α → Option β, ∀ a, Answers (f a) (F a)

namespace Answers

theorem pure (a : α) : Answers (Pure.pure a : EStateM ε W α) (some a) := fun _ => rfl

theorem bind {x : EStateM ε W α} {o : Option α} {f : α → EStateM ε W β} {F : α → Option β}
    (h : Answers x o) (hf : ∀ a, Answers (f a) (F a)) : Answers (x >>= f) (o >>= F) := by
  intro w
  have hw := h w
  show answer? (EStateM.bind x f w) = _
  unfold EStateM.bind
  cases hx : x w with
  | ok a w' =>
    rw [hx] at hw
    subst hw
    exact hf a w'
  | error e w' =>
    rw [hx] at hw
    subst hw
    rfl

/-- A sequence of settled calls is a sequence of their answers. -/
theorem flatMap {f : α → EStateM ε W (Sequence β)} {F : α → Option (Sequence β)}
    (hf : ∀ a, Answers (f a) (F a)) (s : Sequence α) : Answers (s.flatMap f) (s.flatMap F) := by
  obtain ⟨as⟩ := s
  induction as with
  | nil => exact pure _
  | cons a as ih =>
    rw [Sequence.flatMap_cons, Sequence.flatMap_cons]
    exact (hf a).bind fun first => ih.bind fun rest => pure _

end Answers

namespace Sequence

/-- In the host `Option` both ways to nest two calls come to the same: a panic on either side is a
panic, whichever call is made first. -/
theorem flatMap_flatMap (s : Sequence α) (F : α → Option (Sequence β))
    (G : β → Option (Sequence γ)) :
    (s.flatMap F >>= fun r => r.flatMap G) = s.flatMap fun a => F a >>= fun r => r.flatMap G := by
  obtain ⟨as⟩ := s
  induction as with
  | nil => rfl
  | cons a as ih =>
    rw [flatMap_cons, flatMap_cons, ← ih]
    simp only [bind_assoc, pure_bind, flatMap_append]
    -- on the left all calls of `F` come before the first call of `G`
    exact bind_congr fun first => Option.bind_comm (flatMap ⟨as⟩ F) (first.flatMap G)

end Sequence

end Workflow
