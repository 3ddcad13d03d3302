import Workflow.Builder
import Workflow.Text.Inspect

/-!
# Sequences

A computation with any finite number of values, in order. A bind calls its continuation on each
value in turn, at once, and lines up the results; merging puts one sequence behind the other.

The continuation runs in the host monad, so that it may count its calls or stop half way; the order
of the calls is the order of the values.
-/

namespace Workflow

/-- Finitely many values in order.
mirrors effect/sequence:36-41 (`Sequence`) -/
structure Sequence (α : Type) where
  elements : List α
  deriving DecidableEq, Repr, Inhabited

namespace Sequence

variable {m : Type → Type} [Monad m] {α β : Type}

/-- mirrors effect/sequence:61-65 (`empty`) -/
def empty : Sequence α := ⟨[]⟩

/-- mirrors effect/sequence:69-73 (`singleton`) -/
def singleton (a : α) : Sequence α := ⟨[a]⟩

def length (s : Sequence α) : Nat := s.elements.length

def isEmpty (s : Sequence α) : Bool := s.elements.isEmpty

/-- `s`, then `r`.
mirrors effect/sequence:115-118 (`concat`) -/
def append (s r : Sequence α) : Sequence α := ⟨s.elements ++ r.elements⟩

/-- Calls `f` on each value in turn and lines up the results.
mirrors effect/sequence:121-132 (`flat_map`) -/
def flatMap (s : Sequence α) (f : α → m (Sequence β)) : m (Sequence β) :=
  mk <$> s.elements.flatMapM fun a => elements <$> f a

section
variable [LawfulMonad m]

@[simp] theorem flatMap_empty (f : α → m (Sequence β)) : flatMap empty f = return empty := by
  simp [flatMap, empty]

@[simp] theorem flatMap_singleton (a : α) (f : α → m (Sequence β)) :
    flatMap (singleton a) f = f a := by
  simp [flatMap, singleton, List.flatMapM_cons]

theorem flatMap_cons (a : α) (as : List α) (f : α → m (Sequence β)) :
    flatMap ⟨a :: as⟩ f = do
      let first ← f a
      let rest ← flatMap ⟨as⟩ f
      return first.append rest := by
  simp [flatMap, append, List.flatMapM_cons]

/-- Behind the calls for the first sequence come those for the second. -/
theorem flatMap_append (s r : Sequence α) (f : α → m (Sequence β)) :
    (s.append r).flatMap f = do
      let first ← s.flatMap f
      let rest ← r.flatMap f
      return first.append rest := by
  obtain ⟨as⟩ := s
  induction as with
  | nil =>
    rw [show (⟨[]⟩ : Sequence α) = empty from rfl, flatMap_empty, pure_bind]
    simp [append, empty]
  | cons a as ih =>
    rw [show append ⟨a :: as⟩ r = ⟨a :: (append ⟨as⟩ r).elements⟩ from rfl, flatMap_cons,
      flatMap_cons]
    simp only [ih, bind_assoc, pure_bind]
    simp [append]

/-- A closure without effects is called on each value, and nothing else happens. -/
theorem flatMap_of_pure (F : α → Sequence β) (s : Sequence α) :
    (s.flatMap fun a => pure (F a)) =
      (pure ⟨s.elements.flatMap fun a => (F a).elements⟩ : m (Sequence β)) := by
  obtain ⟨as⟩ := s
  induction as with
  | nil => exact flatMap_empty _
  | cons a as ih =>
    rw [flatMap_cons, ih]
    simp [append]

@[simp] theorem flatMap_pure (s : Sequence α) :
    (s.flatMap fun a => pure (singleton a)) = (pure s : m (Sequence α)) := by
  rw [flatMap_of_pure]
  simp [singleton]

end

/-- As `flatMap`, with a closure that knows how often it was called before: closures may keep state
of their own (effect/sequence:123). -/
def flatMapCounted (s : Sequence α) (f : Nat → α → m (Sequence β)) : m (Sequence β) :=
  StateT.run' (s.flatMap fun a => do
    let calls ← modifyGet fun n => (n, n + 1)
    StateT.lift (f calls a)) 0

/-- The sequence for people.
mirrors effect/sequence:171-182 -/
def display (show_ : α → String) (s : Sequence α) : String :=
  "Sequence" ++ Text.listed (s.elements.map show_)

/-- The sequence for inspection. -/
def inspect (show_ : α → String) (s : Sequence α) : String :=
  Text.record "Sequence" [("elements", Text.listed (s.elements.map show_))]

end Sequence

variable (m : Type → Type) [Monad m] {ι : Type} (El : ι → Type)

/-- The builder of sequences, the one that merges.
mirrors effect/sequence:188-223 (`SequenceBuilder`) -/
def Builder.sequence : Builder m El where
  name := "SequenceBuilder"
  Comp t := Sequence (El t)
  bind := Sequence.flatMap
  pure := .singleton
  zero := .empty
  merge? := some Sequence.append

theorem Builder.sequence_merges : (Builder.sequence m El).Merges := rfl

end Workflow
