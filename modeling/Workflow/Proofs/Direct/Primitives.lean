import Workflow.Proofs.Direct.Evaluations
import Workflow.Script.Session

/-!
# State primitives and their derived forms

A state transformer is only ever run, by itself or as the first computation of a bind. `Alike` says
that neither tells two of them apart: from every state they do the same in the host, which is to say
the same calls in the same order, up to the same panic, and leave the same value and the same state.

`get` and `put` keep the three laws of reading and writing one cell. All other primitives are
special cases of theirs, and what the builder derives for every kind of computation (`map`,
`andThen`, `zero`) are the primitives of that name; making them calls nothing.

* `State.primitives_agree`: the laws (`PrimitiveLaws`), and which closures a run calls
  (`PrimitiveCalls`).
-/

namespace Workflow

namespace State

/-! ## Telling state transformers apart -/

section
variable {m : Type → Type} [Monad m] {S α β : Type}

/-- From every state, `c` and `d` do the same, run by themselves or bound to any continuation. -/
structure Alike (c d : State m S α) : Prop where
  alone (s : S) : c.run s = d.run s
  bound {γ : Type} (k : α → m (State m S γ)) (s : S) : (c.flatMap k).run s = (d.flatMap k).run s

/-- A bind does nothing with the first computation but run it. -/
theorem alike_of_run {c d : State m S α} (h : ∀ s, c.run s = d.run s) : Alike c d where
  alone := h
  bound k s := by rw [run_flatMap, run_flatMap, h]

/-- Nothing else tells them apart either. -/
theorem Alike.eq {c d : State m S α} (h : Alike c d) : c = d := by
  obtain ⟨run⟩ := c
  obtain ⟨run'⟩ := d
  exact congrArg State.mk (funext h.alone)

/-! ## The default -/

theorem default_eq [Inhabited α] : Alike (default : State m S α) (State.pure default) := by
  refine alike_of_run fun s => ?_
  rw [run_default, run_pure]

theorem builder_zero {ι : Type} {El : ι → Type} [∀ t, Inhabited (El t)] {t : ι} :
    Alike (default : State m S (El t)) (Builder.state m S El).zero := by
  refine alike_of_run fun s => ?_
  rw [run_default, Builder.run_state_zero]

variable [LawfulMonad m]

/-! ## Reading and writing -/

/-- Writing back what was read is doing nothing. -/
theorem get_put : Alike (get.flatMap fun s => return put s) (State.pure () : State m S Unit) := by
  refine alike_of_run fun s => ?_
  simp only [run_flatMap, run_get, pure_bind, run_put, run_pure]

theorem run_put_get (s₁ s : S) :
    ((put s₁).andThen get : State m S S).run s = return (s₁, s₁) := by
  rw [andThen, run_flatMap, run_put, pure_bind, pure_bind, run_get]

/-- What was written is read. -/
theorem put_get (s₁ : S) :
    Alike ((put s₁).andThen get : State m S S) ((put s₁).andThen (State.pure s₁)) := by
  refine alike_of_run fun s => ?_
  rw [run_put_get, andThen, run_flatMap, run_put, pure_bind, pure_bind, run_pure]

/-- Only the last writing counts. -/
theorem put_put (s₁ s₂ : S) :
    Alike ((put s₁).andThen (put s₂)) (put s₂ : State m S Unit) := by
  refine alike_of_run fun s => ?_
  simp only [andThen, run_flatMap, run_put, pure_bind]

/-! ## Derived forms -/

theorem modify_eq (f : S → m S) : Alike (modify f) (get.flatMap fun s => put <$> f s) := by
  refine alike_of_run fun s => ?_
  simp only [run_modify, run_flatMap, run_get, pure_bind, map_eq_pure_bind, bind_assoc, run_put]

theorem gets_eq (f : S → m α) : Alike (gets f) (get.map f) := by
  refine alike_of_run fun s => ?_
  simp only [run_gets, run_map, run_get, pure_bind]

theorem map_eq (c : State m S α) (f : α → m β) :
    Alike (c.map f) (c.flatMap fun a => State.pure <$> f a) := by
  refine alike_of_run fun s => ?_
  simp only [run_map, run_flatMap, map_eq_pure_bind, bind_assoc, pure_bind, run_pure]

end

/-! ## Calls -/

section
variable {ε W S α β : Type}

theorem leaves_pure (a : α) : Leaves (State.pure a : State (Chronicled ε W) S α) [] :=
  fun _ => .pure rfl

theorem leaves_get : Leaves (get : State (Chronicled ε W) S S) [] :=
  fun _ => .pure rfl

theorem leaves_put (s₁ : S) : Leaves (put s₁ : State (Chronicled ε W) S Unit) [] :=
  fun _ => .pure rfl

theorem Leaves.map {c : State (Chronicled ε W) S α} {marks : List Mark} (h : c.Leaves marks)
    (i : Nat) (f : α → EStateM ε W β) :
    (c.map fun a => Chronicled.calling i (f a)).Leaves (marks ++ [.called i]) := by
  intro s
  rw [run_map]
  refine (h s).bind fun p events hmarks => ?_
  refine (Adds.called i (f p.1)).bind fun b more hcalled => .pure ?_
  simp only [List.append_nil, List.map_append, hmarks, hcalled]

theorem Leaves.andThen {c : State (Chronicled ε W) S α} {d : State (Chronicled ε W) S β}
    {front back : List Mark} (hc : c.Leaves front) (hd : d.Leaves back) :
    (c.andThen d).Leaves (front ++ back) := by
  have hbound : (c.andThen d).Leaves (front ++ ([] ++ back)) :=
    hc.flatMap fun _ => .pure ⟨rfl, hd⟩
  rwa [List.nil_append] at hbound

/-- Whichever closures the one calls, the other calls them in the same order. -/
theorem Alike.leaves {c d : State (Chronicled ε W) S α} {marks : List Mark} (h : Alike c d)
    (hd : d.Leaves marks) : c.Leaves marks := by
  intro s
  rw [h.alone s]
  exact hd s

theorem leaves_modify (i : Nat) (f : S → EStateM ε W S) :
    (modify fun s => Chronicled.calling i (f s)).Leaves [.called i] := by
  have hderived : (get.flatMap fun s => put <$> Chronicled.calling i (f s)).Leaves
      ([] ++ ([.called i] ++ [])) := leaves_get.flatMap fun s =>
    (Adds.called i (f s)).map fun new _ hcalled => ⟨hcalled, leaves_put new⟩
  exact (modify_eq _).leaves hderived

theorem leaves_gets (i : Nat) (f : S → EStateM ε W α) :
    (gets fun s => Chronicled.calling i (f s)).Leaves [.called i] :=
  (gets_eq _).leaves (leaves_get.map i f)

end

/-! ## All together -/

section
variable (m : Type → Type) [Monad m] (S : Type) {ι : Type} (El : ι → Type)

/-- The laws of the primitives. -/
structure PrimitiveLaws [∀ t, Inhabited (El t)] : Prop where
  get_put : Alike (get.flatMap fun s => return put s) (State.pure () : State m S Unit)
  put_get (s₁ s : S) : ((put s₁).andThen get : State m S S).run s = return (s₁, s₁)
  put_get_pure (s₁ : S) :
    Alike ((put s₁).andThen get : State m S S) ((put s₁).andThen (State.pure s₁))
  put_put (s₁ s₂ : S) : Alike ((put s₁).andThen (put s₂)) (put s₂ : State m S Unit)
  modify_eq (f : S → m S) : Alike (modify f) (get.flatMap fun s => put <$> f s)
  gets_eq {α : Type} (f : S → m α) : Alike (gets f) (get.map f)
  map_eq {α β : Type} (c : State m S α) (f : α → m β) :
    Alike (c.map f) (c.flatMap fun a => State.pure <$> f a)
  /-- What the builder derives is the primitive, and making it calls nothing. -/
  builder_map {s t : ι} (c : State m S (El s)) (f : El s → m (El t)) :
    (Builder.state m S El).map c f = pure (c.map f)
  builder_andThen {s t : ι} (c : State m S (El s)) (d : State m S (El t)) :
    (Builder.state m S El).andThen c d = pure (c.andThen d)
  builder_zero {t : ι} : Alike (default : State m S (El t)) (Builder.state m S El).zero
  default_eq {α : Type} [Inhabited α] : Alike (default : State m S α) (State.pure default)

end

/-- Which closures a run calls, if every one leaves its number. -/
structure PrimitiveCalls (ε W S : Type) : Prop where
  /-- What only reads and writes calls nothing. -/
  calls_pure {α : Type} (a : α) : Leaves (State.pure a : State (Chronicled ε W) S α) []
  calls_get : Leaves (get : State (Chronicled ε W) S S) []
  calls_put (s₁ : S) : Leaves (put s₁ : State (Chronicled ε W) S Unit) []
  /-- A closure is called once for a run. -/
  calls_modify (i : Nat) (f : S → EStateM ε W S) :
    (modify fun s => Chronicled.calling i (f s)).Leaves [.called i]
  calls_gets {α : Type} (i : Nat) (f : S → EStateM ε W α) :
    (gets fun s => Chronicled.calling i (f s)).Leaves [.called i]
  /-- It is called behind the computation for whose value it waits. -/
  calls_map {α β : Type} {c : State (Chronicled ε W) S α} {marks : List Mark} (h : c.Leaves marks)
    (i : Nat) (f : α → EStateM ε W β) :
    (c.map fun a => Chronicled.calling i (f a)).Leaves (marks ++ [.called i])
  calls_andThen {α β : Type} {c : State (Chronicled ε W) S α} {d : State (Chronicled ε W) S β}
    {front back : List Mark} (hc : c.Leaves front) (hd : d.Leaves back) :
    (c.andThen d).Leaves (front ++ back)
  /-- A continuation is called in between, and what it answers is run. -/
  calls_bound {α β : Type} {c : State (Chronicled ε W) S α} {marks : List Mark} (h : c.Leaves marks)
    (i : Nat) (k : α → EStateM ε W (State (EStateM ε W) S β)) :
    (c.flatMap fun a => entered i (k a)).Leaves (marks ++ [.called i, .ran i false])
  /-- The two sides of a law call the same closures in the same order. -/
  calls_alike {α : Type} {c d : State (Chronicled ε W) S α} {marks : List Mark} (h : Alike c d)
    (hd : d.Leaves marks) : c.Leaves marks

/-- **The primitives are what their laws say**, with closures that do anything, by themselves or in
front of a continuation, and a run calls each closure once, in its place. -/
theorem primitives_agree {m : Type → Type} [Monad m] [LawfulMonad m] {ι : Type} (El : ι → Type)
    [∀ t, Inhabited (El t)] (ε W S : Type) :
    PrimitiveLaws m S El ∧ PrimitiveCalls ε W S := by
  constructor
  · constructor
    case get_put => exact get_put
    case put_get => exact run_put_get
    case put_get_pure => exact put_get
    case put_put => exact put_put
    case modify_eq => exact modify_eq
    case gets_eq => exact gets_eq
    case map_eq => exact map_eq
    case builder_map => exact fun c f => congrArg pure (map_eq c f).eq.symm
    case builder_andThen => exact fun _ _ => rfl
    case builder_zero => exact builder_zero
    case default_eq => exact default_eq
  · constructor
    case calls_pure => exact leaves_pure
    case calls_get => exact leaves_get
    case calls_put => exact leaves_put
    case calls_modify => exact leaves_modify
    case calls_gets => exact leaves_gets
    case calls_map => exact Leaves.map
    case calls_andThen => exact Leaves.andThen
    case calls_bound =>
      intro α β c marks h i k
      exact h.flatMap fun a => adds_entered i (k a)
    case calls_alike => exact Alike.leaves

end State

section
open Script

/-- Counts, gives up at zero, and doubles. -/
def twice (st : Int64) : Act Int64 := do
  let _ ← Act.tick "twice"
  if st = 0 then throw .divisionByZero else return 2 * st

/-- Reads the state, and writes twice of it. -/
def readTwice : State Act Int64 Unit := State.get.flatMap fun st => State.put <$> twice st

/-- Reading and writing twice three makes six of it, by one call, also if the state is read
afterwards, and panics at zero, because `modify` does. -/
theorem twice_agrees : ∃ w w',
    readTwice.run 3 Session.fresh = .ok ((), 6) w ∧ w.counters.find? "twice" = some 1 ∧
    (readTwice.flatMap fun _ => return State.get).run 3 Session.fresh = .ok (6, 6) w ∧
    readTwice.run 0 Session.fresh = .error .divisionByZero w' ∧
    State.Leaves (State.modify fun st => Chronicled.calling 1 (twice st)) [.called 1] := by
  obtain ⟨hlaws, hcalls⟩ := State.primitives_agree (m := Act) Script.El Fault Session Int64
  have htwice := hlaws.modify_eq twice
  exact ⟨_, _, (congrFun (htwice.alone 3) Session.fresh).symm.trans rfl, rfl,
    (congrFun (htwice.bound (fun _ => return State.get) 3) Session.fresh).symm.trans rfl,
    (congrFun (htwice.alone 0) Session.fresh).symm.trans rfl, hcalls.calls_modify 1 twice⟩

end

end Workflow
