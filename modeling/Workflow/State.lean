import Workflow.Builder

/-!
# State transformers

A computation that reads and replaces a state of type `S` on the way to its value. Making one runs
nothing: the work is done by `run`, once for every run, in the order of the workflow.

`flatMap` runs the first computation, calls the continuation on its value and runs what that
answers, handing the state along. `pure`, `map` and `andThen` are its special cases;
`get`, `put`, `modify` and `gets` reach the state itself.
-/

namespace Workflow

/-- A computation of an `α` over a state `S`.
mirrors effect/state:60-63 (`State`) -/
structure State (m : Type → Type) (S α : Type) where
  /-- The value and the state afterwards. -/
  run : S → m (α × S)

namespace State

variable {m : Type → Type} [Monad m] {S α β : Type}

/-- The value alone.
mirrors effect/state:104-107 (`eval`) -/
def eval (c : State m S α) (s : S) : m α := Prod.fst <$> c.run s

/-- The state afterwards alone.
mirrors effect/state:117-120 (`exec`) -/
def exec (c : State m S α) (s : S) : m S := Prod.snd <$> c.run s

/-- mirrors effect/state:123-128 (`pure`) -/
protected def pure (a : α) : State m S α := ⟨fun s => return (a, s)⟩

/-- Applies `f` to the value, after the computation has run.
mirrors effect/state:131-141 (`fmap`) -/
protected def map (c : State m S α) (f : α → m β) : State m S β :=
  ⟨fun s => do
    let (a, s) ← c.run s
    return (← f a, s)⟩

/-- Runs `c`, calls `k` on its value, and runs what `k` answers from the state that `c` left.
mirrors effect/state:156-167 (`flat_map`) -/
def flatMap (c : State m S α) (k : α → m (State m S β)) : State m S β :=
  ⟨fun s => do
    let (a, s) ← c.run s
    let next ← k a
    next.run s⟩

/-- `next` after `c`, whose value is dropped.
mirrors effect/state:171-176 (`then`) -/
def andThen (c : State m S α) (next : State m S β) : State m S β :=
  c.flatMap fun _ => return next

/-- The state as the value.
mirrors effect/state:203-205 (`get`) -/
def get : State m S S := ⟨fun s => return (s, s)⟩

/-- A view of the state as the value.
mirrors effect/state:186-194 (`gets`) -/
def gets (f : S → m α) : State m S α := ⟨fun s => return (← f s, s)⟩

/-- Replaces the state.
mirrors effect/state:213-218 (`put`) -/
def put (s : S) : State m S Unit := ⟨fun _ => return ((), s)⟩

/-- Changes the state by `f`.
mirrors effect/state:221-226 (`modify`) -/
def modify (f : S → m S) : State m S Unit := ⟨fun s => return ((), ← f s)⟩

/-- The default value; the state stays.
mirrors effect/state:249-253 (`default`) -/
instance [Inhabited α] : Inhabited (State m S α) := ⟨⟨fun s => return (default, s)⟩⟩

/-! ## What runs do -/

@[simp] theorem run_pure (a : α) (s : S) : (State.pure a : State m S α).run s = return (a, s) := rfl

@[simp] theorem run_default [Inhabited α] (s : S) :
    (default : State m S α).run s = return (default, s) := rfl

@[simp] theorem run_map (c : State m S α) (f : α → m β) (s : S) :
    (c.map f).run s = c.run s >>= fun p => f p.1 >>= fun b => return (b, p.2) := rfl

@[simp] theorem run_flatMap (c : State m S α) (k : α → m (State m S β)) (s : S) :
    (c.flatMap k).run s = c.run s >>= fun p => k p.1 >>= fun next => next.run p.2 := rfl

@[simp] theorem run_get (s : S) : (get : State m S S).run s = return (s, s) := rfl

@[simp] theorem run_gets (f : S → m α) (s : S) :
    (gets f).run s = f s >>= fun a => return (a, s) := rfl

@[simp] theorem run_put (new s : S) : (put new : State m S Unit).run s = return ((), new) := rfl

@[simp] theorem run_modify (f : S → m S) (s : S) :
    (modify f).run s = f s >>= fun new => return ((), new) := rfl

end State

variable (m : Type → Type) [Monad m] (S : Type) {ι : Type} (El : ι → Type)

/-- The builder of computations over the state `S`. It cannot merge.
mirrors effect/state:301-322 (`StateBuilder`) -/
def Builder.state [∀ t, Inhabited (El t)] : Builder m El where
  name := "StateBuilder"
  Comp t := State m S (El t)
  bind c k := return c.flatMap k
  pure := State.pure
  zero := default
  merge? := none

variable {m S El}

@[simp] theorem Builder.run_state_zero [∀ t, Inhabited (El t)] {t : ι} (s : S) :
    ((Builder.state m S El).zero : State m S (El t)).run s = return (default, s) := rfl

end Workflow
