import Workflow.Block
import Workflow.Script.Session
import Workflow.Sequence

/-!
# Blocks of sequences are generators

A block over sequences can be read as a program of nested loops with one buffer: a bind loops over
the values of its sequence and executes the steps behind it for each of them, a yield pushes its
value and goes on. `Block.emit` is that program. It never makes a sequence; it pushes, depth first,
to the buffer that it was given.

`Emits gen x` says that `gen` pushes, from any buffer on, the values of the sequence that `x` makes,
and does otherwise what `x` does. There is one rule for each way in which sequences are made, so the
two are followed side by side (`emits_build`), and the result is `build_eq_emit`: what a block
builds is what is in the buffer at the end.
-/

namespace Workflow

variable {m : Type → Type} [Monad m] {ι : Type} {El : ι → Type} {Env : Type} {t : ι} {α β : Type}

/-- Puts a value behind those in the buffer. -/
def push (v : α) : StateT (Array α) m Unit := modify fun buffer => buffer.push v

/-- Executes the steps of a block with a buffer. -/
def Block.emit : Block (Builder.sequence m El) Env t → Env → StateT (Array (El t)) m Unit
  | bind comp extend rest, env => do
    let s ← comp env
    (Sequence.elements s).forM fun u => rest.emit (extend u env)
  | define extend rest, env => do rest.emit (← extend env)
  | yield _ value rest, env => do
    push (← value env)
    rest.emit env
  | result value, env => do push (← value env)
  | finish comp, env => do
    let s ← comp env
    (Sequence.elements s).forM push

/-- From any buffer on, `gen` pushes what `x` makes, and does what `x` does. -/
def Emits (gen : StateT (Array α) m Unit) (x : m (Sequence α)) : Prop :=
  ∀ buffer, gen.run buffer = (fun s => ((), buffer ++ s.elements.toArray)) <$> x

namespace Emits

variable [LawfulMonad m] {gen next : StateT (Array α) m Unit} {x y : m (Sequence α)}

theorem nothing : Emits (pure () : StateT (Array α) m Unit) (pure .empty) := by
  intro buffer
  simp [Sequence.empty]

theorem push (v : α) : Emits (m := m) (push v) (pure (.singleton v)) := by
  intro buffer
  simp [Workflow.push, Sequence.singleton]

/-- What is pushed first stands in front. -/
theorem andThen (h : Emits gen x) (hnext : Emits next y) :
    Emits (gen >>= fun _ => next) (do
      let s ← x
      let r ← y
      return s.append r) := by
  intro buffer
  rw [StateT.run_bind, h buffer]
  simp [hnext _, Sequence.append, Array.append_assoc]

/-- An act of the host before both. -/
theorem after {act : m β} {gen : β → StateT (Array α) m Unit} {x : β → m (Sequence α)}
    (h : ∀ a, Emits (gen a) (x a)) :
    Emits ((liftM act : StateT (Array α) m β) >>= gen) (act >>= x) := by
  intro buffer
  simp [h _ buffer]

/-- A loop over the values of a sequence. -/
theorem loop {gen : β → StateT (Array α) m Unit} {f : β → m (Sequence α)}
    (h : ∀ u, Emits (gen u) (f u)) (s : Sequence β) :
    Emits (s.elements.forM gen) (s.flatMap f) := by
  obtain ⟨us⟩ := s
  induction us with
  | nil =>
    rw [show (⟨[]⟩ : Sequence β) = .empty from rfl, Sequence.flatMap_empty]
    exact nothing
  | cons u us ih =>
    rw [Sequence.flatMap_cons]
    exact (h u).andThen ih

theorem loop_push (s : Sequence α) : Emits (m := m) (s.elements.forM Workflow.push) (pure s) := by
  have hloop := loop (m := m) push s
  rwa [Sequence.flatMap_pure] at hloop

/-- What is in the buffer at the end, if it was empty at the beginning. -/
theorem filled (h : Emits gen x) :
    (fun filled => (⟨filled.2.toList⟩ : Sequence α)) <$> gen.run #[] = x := by
  rw [h, Functor.map_map]
  simp

end Emits

variable [LawfulMonad m]

/-- From any buffer on, the loops push what the block builds. -/
theorem Block.emits_build (block : Block (Builder.sequence m El) Env t) (env : Env) :
    Emits (block.emit env) (block.build env) := by
  induction block generalizing env with
  | bind comp extend rest ih => exact .after fun s => .loop (fun u => ih (extend u env)) s
  | define extend rest ih => exact .after ih
  | yield merges value rest ih =>
    refine .after fun v => ?_
    have hfront := (Emits.push v).andThen (ih env)
    rwa [pure_bind] at hfront
  | result value =>
    rw [build, map_eq_pure_bind]
    exact .after fun v => .push v
  | finish comp =>
    rw [build, ← bind_pure (comp env)]
    exact .after fun s => .loop_push s

/-- **A block of sequences is a generator.** In every host, building the block is running its loops
with an empty buffer and taking what is in the buffer then. As acts of the host the two are the
same: every expression is evaluated when the loops come to it, as often as they come to it, and
where one of them panics both have done the same so far. -/
theorem Block.build_eq_emit (block : Block (Builder.sequence m El) Env t) (env : Env) :
    block.build env =
      (fun filled => (⟨filled.2.toList⟩ : Sequence (El t))) <$> (block.emit env).run #[] := by
  exact (block.emits_build env).filled.symm

section
open Script

/-- Every item of the first sequence with every item of the second: both, and their product. -/
def products : Block (Builder.sequence Act Script.El) (List Int64) .int :=
  .bind (s := .int) (fun _ => return (⟨[1, 2, 3]⟩ : Sequence Int64)) List.cons
    (.bind (s := .int)
      (fun _ => do
        let _ ← Act.tick "rows"
        return (⟨[100, 200]⟩ : Sequence Int64)) List.cons
      (.yield rfl (fun items => return items.getD 1 0)
        (.yield rfl (fun items => return items.getD 0 0)
          (.result fun items => return items.getD 1 0 * items.getD 0 0))))

theorem products_emit : ∃ w,
    products.build [] Session.fresh = .ok (⟨[1, 100, 100, 1, 200, 200, 2, 100, 200, 2, 200, 400,
      3, 100, 300, 3, 200, 600]⟩ : Sequence Int64) w ∧ w.counters.find? "rows" = some 3 := by
  rw [Block.build_eq_emit]
  exact ⟨_, rfl, rfl⟩

end

end Workflow
