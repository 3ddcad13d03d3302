import Workflow.Proofs.Direct.Performance
import Workflow.Proofs.Direct.Settled
import Workflow.Proofs.Nesting.Regrouped

/-!
# The laws of sequencing

Three laws say that a bind is sequencing: to bind a plain value is to call the continuation on it,
to bind the continuation that only wraps its value is to do nothing, and two binds may be regrouped.
They are laws up to a sense in which computations are the same, and that sense differs.

* Optional values are there when they are made, and both sides are the same act of the host: the
  same value or the same panic, by the same calls.
* A state transformer is made first and run later, and the laws move a call from the one to the
  other. Made and run once, both sides are the same act, from every state.
* With sequences regrouping changes the order of the calls. The two sides have the same values in
  the same order if the closures are settled; then the one panics if the other does.

For the first two a performance is all that is needed (`Performance.laws`): there the laws are those
of the monad in which computations are performed.
-/

namespace Workflow

variable {m n : Type → Type} {ι : Type} {El : ι → Type}

/-- The laws of sequencing for continuations that are `Fit`, where `Same` says when two acts make
the same computation. -/
structure Builder.Lawful [Monad m] (b : Builder m El)
    (Fit : ∀ {s t : ι}, (El s → m (b.Comp t)) → Prop)
    (Same : ∀ {t : ι}, m (b.Comp t) → m (b.Comp t) → Prop) : Prop where
  pure_bind {s t : ι} (u : El s) (f : El s → m (b.Comp t)) (hf : Fit f) :
    Same (b.bind (b.pure u) f) (f u)
  bind_pure {t : ι} (c : b.Comp t) : Same (b.bind c fun u => return b.pure u) (return c)
  bind_assoc {r s t : ι} (c : b.Comp r) (f : El r → m (b.Comp s)) (g : El s → m (b.Comp t))
    (hf : Fit f) (hg : Fit g) : Same (b.bindLeft c f g) (b.bindRight c f g)

theorem Builder.Lawful.imp [Monad m] {b : Builder m El}
    {Fit : ∀ {s t : ι}, (El s → m (b.Comp t)) → Prop}
    {Same Same' : ∀ {t : ι}, m (b.Comp t) → m (b.Comp t) → Prop} (h : b.Lawful Fit Same)
    (hsame : ∀ {t : ι} (x y : m (b.Comp t)), Same x y → Same' x y) : b.Lawful Fit Same' where
  pure_bind u f hf := hsame _ _ (h.pure_bind u f hf)
  bind_pure c := hsame _ _ (h.bind_pure c)
  bind_assoc c f g hf hg := hsame _ _ (h.bind_assoc c f g hf hg)

/-- What is performed in a lawful monad is lawful when it is performed. -/
theorem Performance.laws [Monad m] [LawfulMonad m] [Monad n] [LawfulMonad n] [MonadLiftT m n]
    [LawfulMonadLiftT m n] {b : Builder m El} (p : Performance b n) :
    b.Lawful (fun _ => True) fun x y => p.performed x = p.performed y where
  pure_bind u f _ := by
    rw [performed_bind, p.perform_pure, pure_bind]
  bind_pure c := by
    simp only [performed_bind, performed_pure, p.perform_pure]
    exact bind_pure (p.perform c)
  bind_assoc c f g _ _ := by
    simp only [Builder.bindLeft, Builder.bindRight, performed_after_bind, performed_bind]
    exact bind_assoc _ _ _

/-- Made and run once, from any state, `x` and `y` do the same. -/
def SameRuns {S α : Type} [Monad m] (x y : m (State m S α)) : Prop :=
  ∀ s, (x >>= fun c => c.run s) = (y >>= fun c => c.run s)

/-- From any world, `x` and `y` answer the same, or both panic. -/
def SameAnswers {ε W α : Type} (x y : EStateM ε W α) : Prop := ∀ w, answer? (x w) = answer? (y w)

/-- Regrouping two binds of sequences, if no call depends on what the others did. -/
theorem Settled.regroup {ε W : Type} {r s t : ι} (c : Sequence (El r))
    {f : El r → EStateM ε W (Sequence (El s))} {g : El s → EStateM ε W (Sequence (El t))}
    (hf : Settled f) (hg : Settled g) :
    SameAnswers ((Builder.sequence (EStateM ε W) El).bindLeft c f g)
      ((Builder.sequence (EStateM ε W) El).bindRight c f g) := by
  obtain ⟨F, hF⟩ := hf
  obtain ⟨G, hG⟩ := hg
  have hleft : Answers ((Builder.sequence (EStateM ε W) El).bindLeft c f g)
      (c.flatMap F >>= fun d => d.flatMap G) :=
    (Answers.flatMap hF c).bind fun d => Answers.flatMap hG d
  have hright : Answers ((Builder.sequence (EStateM ε W) El).bindRight c f g)
      (c.flatMap fun u => F u >>= fun d => d.flatMap G) :=
    Answers.flatMap (fun u => (hF u).bind fun d => Answers.flatMap hG d) c
  intro w
  refine (hleft w).trans (Eq.trans ?_ (hright w).symm)
  exact Sequence.flatMap_flatMap c F G

/-- **The laws of sequencing hold** for optional values and for state transformers with closures
that do anything, in the order of all calls and up to any panic, and for sequences with settled
closures, in the values and their order. -/
theorem Builder.laws_of_sequencing [Monad m] [LawfulMonad m] [∀ t, Inhabited (El t)]
    (S ε W : Type) :
    (Builder.optional m El).Lawful (fun _ => True) Eq ∧
    (Builder.state m S El).Lawful (fun _ => True) SameRuns ∧
    (Builder.sequence (EStateM ε W) El).Lawful Settled SameAnswers := by
  refine ⟨?_, ?_, ?_⟩
  · refine Performance.optional.laws.imp fun x y hxy => ?_
    exact (Performance.run_optional x).symm.trans
      ((congrArg OptionT.run hxy).trans (Performance.run_optional y))
  · refine Performance.state.laws.imp fun x y hxy s => ?_
    exact (Performance.run_state x s).symm.trans
      ((congrArg (StateT.run · s) hxy).trans (Performance.run_state y s))
  · refine ⟨fun u f _ w => ?_, fun c w => ?_, fun c f g hf hg => Settled.regroup c hf hg⟩
    · exact congrArg answer? (congrFun (Sequence.flatMap_singleton u f) w)
    · exact congrArg answer? (congrFun (Sequence.flatMap_pure (m := EStateM ε W) c) w)

section
open Script

/-- Counts, gives up on zero, and answers a half and the whole. -/
def halves (u : Int64) : Act (Sequence Int64) := do
  let _ ← Act.tick "halves"
  if u = 0 then throw .divisionByZero else return ⟨[u / 2, u]⟩

theorem settled_halves : Settled halves := by
  refine ⟨fun u => if u = 0 then none else some ⟨[u / 2, u]⟩, fun u w => ?_⟩
  by_cases hu : u = 0
  · subst hu
    rfl
  · simp only [halves, if_neg hu]
    rfl

/-- The one value with which it starts. -/
def four : (Builder.sequence Act Script.El).Comp .int := (⟨[4]⟩ : Sequence Int64)

/-- Halves of halves are there, grouped to the left; so they are, grouped to the right. -/
theorem halves_regrouped : ∃ w, Settled halves ∧
    (Builder.sequence Act Script.El).bindLeft (s := Ty.int) (t := Ty.int) four halves halves
      Session.fresh = .ok (⟨[1, 2, 2, 4]⟩ : Sequence Int64) w ∧
    answer? ((Builder.sequence Act Script.El).bindRight (s := Ty.int) (t := Ty.int) four halves
      halves Session.fresh) = some (⟨[1, 2, 2, 4]⟩ : Sequence Int64) := by
  have hlaws := @Builder.laws_of_sequencing Act Ty Script.El _ _ _ Int64 Fault Session
  have hregroup := hlaws.2.2.bind_assoc (s := Ty.int) (t := Ty.int) four halves halves
    settled_halves settled_halves Session.fresh
  exact ⟨_, settled_halves, rfl, hregroup.symm.trans rfl⟩

end

end Workflow
