import Mathlib.Logic.Function.Iterate
import Workflow.Proofs.Direct.Chains
import Workflow.Script.Session

/-!
# Chains of state transformers thread one state

Over states a bind makes a computation and runs nothing, so a chain is nested before any of its
continuations is called: `Chain.flatMapLeft` and `Chain.flatMapRight` are what is made of it. The
two are put together in opposite orders, from the outside in and from the inside out, and their runs
are the same (`run_flatMapLeft`); so are those of what a sequencer makes of the continuations
(`run_continuation`).

`Chain.Threading` says how a run goes. Every step has a body, the computation at the start or what a
continuation answered. The body is run from the state that the body before it left; then the next
continuation is called on the value, and its answer is the next body. `flatMapRight_threads` follows
the nesting whose recursion is that of the run.

`State.Repeats` is the case in which all steps are the same and hand on no value.
-/

namespace Workflow

variable {m : Type → Type} {ι : Type} {El : ι → Type} {s t : ι} {ε W S : Type}

/-! ## What is made of a chain -/

/-- State transformers run alike if nobody in direct style can tell them apart. -/
theorem Performance.run_eq_of_performed [Monad m] [LawfulMonad m] [∀ t, Inhabited (El t)]
    {c d : (Builder.state m S El).Comp t}
    (h : (state.performed (pure c) : StateT S m (El t)) = state.performed (pure d)) :
    State.run c = State.run d :=
  (state.performed_pure c).symm.trans (h.trans (state.performed_pure d))

namespace Chain

section
variable [Monad m] [∀ t, Inhabited (El t)]

/-- The chain behind `c`, with its binds made one after the other. -/
def flatMapLeft {s t : ι} (c : State m S (El s)) :
    Chain (Builder.state m S El) s t → State m S (El t)
  | nil => c
  | cons k rest => rest.flatMapLeft (c.flatMap k)

/-- The chain behind `c`, with every bind made inside the continuation of the one before. -/
def flatMapRight {s t : ι} (c : State m S (El s)) :
    Chain (Builder.state m S El) s t → State m S (El t)
  | nil => c
  | cons k rest => c.flatMap fun u => do return rest.flatMapRight (← k u)

theorem nestRight_eq_pure (chain : Chain (Builder.state m S El) s t) (c : State m S (El s)) :
    chain.nestRight c = pure (chain.flatMapRight c) := by
  induction chain with
  | nil => rfl
  | cons k rest ih =>
    refine congrArg (fun next => pure (c.flatMap next)) (funext fun u => ?_)
    exact bind_congr ih

variable [LawfulMonad m]

theorem nestLeft_eq_pure (chain : Chain (Builder.state m S El) s t) (c : State m S (El s)) :
    chain.nestLeft c = pure (chain.flatMapLeft c) := by
  induction chain with
  | nil => rfl
  | cons k rest ih => exact (pure_bind (c.flatMap k) _).trans (ih (c.flatMap k))

/-- A run of the one nesting is a run of the other. -/
theorem run_flatMapLeft (chain : Chain (Builder.state m S El) s t) (c : State m S (El s)) :
    (chain.flatMapLeft c).run = (chain.flatMapRight c).run := by
  -- in direct style both are one loop, and nothing is left of how they were put together
  have hnested : Performance.state.performed (chain.nestLeft c) =
      Performance.state.performed (chain.nestRight c) :=
    (Performance.state.performed_nestLeft chain c).trans
      (Performance.state.performed_nestRight chain c).symm
  rw [nestLeft_eq_pure, nestRight_eq_pure] at hnested
  exact Performance.run_eq_of_performed hnested

/-- The start is run, the first continuation is called on its value, and the rest of the chain is
run behind what that answers, from the state that the start left. -/
theorem run_flatMapRight_cons {u : ι} (k : El s → m (State m S (El u)))
    (rest : Chain (Builder.state m S El) u t) (c : State m S (El s)) (st : S) :
    ((cons (b := Builder.state m S El) k rest).flatMapRight c).run st =
      c.run st >>= fun p => k p.1 >>= fun d => (rest.flatMapRight d).run p.2 := by
  refine bind_congr fun p => ?_
  exact (bind_assoc _ _ _).trans (bind_congr fun d => pure_bind _ _)

end

end Chain

/-- A run of what a sequencer makes of its continuations, if it finishes with the value that it
has. -/
theorem Sequencer.run_continuation [Monad m] [LawfulMonad m] [∀ t, Inhabited (El t)]
    (ks : List (El t → m ((Builder.state m S El).Comp t))) (c : State m S (El t)) :
    (c.flatMap ((ofBinds ks).continuation pure)).run = ((Chain.ofList ks).flatMapRight c).run := by
  have hchain := Performance.state.performed_bind_continuation ks c
  rw [Chain.nestRight_eq_pure] at hchain
  exact Performance.run_eq_of_performed hchain

/-! ## How a run goes -/

/-- How a chain runs whose start `c` is the body numbered `i`, from the state `st`: the runs of its
bodies and the calls of its continuations, and how it ends. -/
inductive Chain.Threading [∀ t, Inhabited (El t)] : {s t : ι} →
    Chain (Builder.state (EStateM ε W) S El) s t → (i : Nat) → State (EStateM ε W) S (El s) → S → W →
    List (Event ε W) → EStateM.Result ε W (El t × S) → Prop where
  /-- A body panics. -/
  | broken {s t : ι} (chain : Chain (Builder.state (EStateM ε W) S El) s t) (i : Nat)
      {c : State (EStateM ε W) S (El s)} {st : S} {w w' : W} {e : ε}
      (hc : c.run st w = .error e w') :
    Threading chain i c st w [.ran ⟨i, w, w', some e⟩ false] (.error e w')
  /-- What the last body leaves is the result. -/
  | finished {t : ι} (i : Nat) {c : State (EStateM ε W) S (El t)} {st : S} {w w' : W} {p : El t × S}
      (hc : c.run st w = .ok p w') :
    Threading .nil i c st w [.ran ⟨i, w, w', none⟩ false] (.ok p w')
  /-- A body is run, and the continuation behind it panics. -/
  | panicked {s u t : ι} {k : El s → EStateM ε W (State (EStateM ε W) S (El u))}
      (rest : Chain (Builder.state (EStateM ε W) S El) u t) (i : Nat)
      {c : State (EStateM ε W) S (El s)} {st st' : S} {w w₁ w₂ : W} {v : El s} {e : ε}
      (hc : c.run st w = .ok (v, st') w₁) (hk : k v w₁ = .error e w₂) :
    Threading (.cons k rest) i c st w
      [.ran ⟨i, w, w₁, none⟩ false, .called ⟨i + 1, w₁, w₂, some e⟩] (.error e w₂)
  /-- A body is run, the continuation is called on its value, and the others go on behind what it
  answers, from the state that the body left. -/
  | passed {s u t : ι} {k : El s → EStateM ε W (State (EStateM ε W) S (El u))}
      {rest : Chain (Builder.state (EStateM ε W) S El) u t} {i : Nat}
      {c : State (EStateM ε W) S (El s)} {d : State (EStateM ε W) S (El u)} {st st' : S}
      {w w₁ w₂ : W} {v : El s} {events : List (Event ε W)} {r : EStateM.Result ε W (El t × S)}
      (hc : c.run st w = .ok (v, st') w₁) (hk : k v w₁ = .ok d w₂)
      (hrest : Threading rest (i + 1) d st' w₂ events r) :
    Threading (.cons k rest) i c st w
      (.ran ⟨i, w, w₁, none⟩ false :: .called ⟨i + 1, w₁, w₂, none⟩ :: events) r

namespace State

variable {α : Type} {c : State (EStateM ε W) S α} {act : EStateM ε W (State (EStateM ε W) S α)}
  {st : S} {w w' : W} {e : ε}

theorem run_sealed_of_ok {p : α × S} (h : c.run st w = .ok p w') (i : Nat)
    (before : List (Event ε W)) : (c.sealed i).run st ⟨w, before⟩ =
      .ok p ⟨w', before ++ [.ran ⟨i, w, w', none⟩ false]⟩ :=
  Chronicled.performing_of_ok h i (fun call _ => .ran call false) before

theorem run_sealed_of_error (h : c.run st w = .error e w') (i : Nat) (before : List (Event ε W)) :
    (c.sealed i).run st ⟨w, before⟩ =
      .error e ⟨w', before ++ [.ran ⟨i, w, w', some e⟩ false]⟩ :=
  Chronicled.performing_of_error h i (fun call _ => .ran call false) before

theorem entered_of_ok {d : State (EStateM ε W) S α} (h : act w = .ok d w') (i : Nat)
    (before : List (Event ε W)) : entered i act ⟨w, before⟩ =
      .ok (d.sealed i) ⟨w', before ++ [.called ⟨i, w, w', none⟩]⟩ := by
  rw [entered, map_eq_pure_bind]
  exact bind_of_ok (Chronicled.calling_of_ok h i before) _

theorem entered_of_error (h : act w = .error e w') (i : Nat) (before : List (Event ε W)) :
    entered i act ⟨w, before⟩ = .error e ⟨w', before ++ [.called ⟨i, w, w', some e⟩]⟩ := by
  rw [entered, map_eq_pure_bind]
  exact bind_of_error (Chronicled.calling_of_error h i before) _

end State

namespace Chain

/-- The record of a whole run, from the body numbered `i` on. -/
def threaded {m : Type → Type} {b : Builder m El} {s t : ι} : Chain b s t → (i : Nat) → List Mark
  | nil, i => [.ran i false]
  | cons _ rest, i => .ran i false :: .called (i + 1) :: rest.threaded (i + 1)

/-- Each continuation is called once, between the body before it and its own. -/
theorem called_threaded {m : Type → Type} {b : Builder m El} (chain : Chain b s t) (i : Nat) :
    (chain.threaded i).filterMap Mark.called? = List.range' (i + 1) chain.length := by
  induction chain generalizing i with
  | nil => rfl
  | cons k rest ih => exact congrArg ((i + 1) :: ·) (ih (i + 1))

namespace Threading

variable [∀ t, Inhabited (El t)] {chain : Chain (Builder.state (EStateM ε W) S El) s t} {i : Nat}
  {c : State (EStateM ε W) S (El s)} {st : S} {w w' : W} {events : List (Event ε W)}
  {r : EStateM.Result ε W (El t × S)}

/-- Nothing is left out. -/
theorem marks_prefix (h : chain.Threading i c st w events r) :
    events.map Event.mark <+: chain.threaded i := by
  induction h with
  | broken chain i hc =>
    cases chain with
    | nil => exact List.prefix_refl _
    | cons k rest => exact ⟨_, rfl⟩
  | finished i hc => exact List.prefix_refl _
  | panicked rest i hc hk => exact ⟨_, rfl⟩
  | passed hc hk hrest ih =>
    exact List.cons_prefix_cons.mpr ⟨rfl, List.cons_prefix_cons.mpr ⟨rfl, ih⟩⟩

theorem complete {p : El t × S} (h : chain.Threading i c st w events (.ok p w')) :
    events.map Event.mark = chain.threaded i := by
  generalize hr : EStateM.Result.ok p w' = r at h
  induction h with
  | broken | panicked => cases hr
  | finished => rfl
  | passed hc hk hrest ih => exact congrArg (_ :: _ :: ·) (ih hr)

/-- A run that panics does so in its last act. -/
theorem at_panic {e : ε} (h : chain.Threading i c st w events (.error e w')) :
    ∃ before last, calls events = before ++ [last] ∧ (∀ call ∈ before, call.panic = none) ∧
      last.panic = some e ∧ last.after = w' := by
  generalize hr : EStateM.Result.error e w' = r at h
  induction h with
  | broken chain i hc =>
    cases hr
    exact ⟨[], _, rfl, nofun, rfl, rfl⟩
  | finished => cases hr
  | panicked rest i hc hk =>
    cases hr
    exact ⟨[_], _, rfl, List.forall_mem_singleton.mpr rfl, rfl, rfl⟩
  | passed hc hk hrest ih =>
    obtain ⟨before, last, hcalls, hbefore, hlast⟩ := ih hr
    refine ⟨_ :: _ :: before, last, congrArg (_ :: _ :: ·) hcalls, ?_, hlast⟩
    exact List.forall_mem_cons.mpr ⟨rfl, List.forall_mem_cons.mpr ⟨rfl, hbefore⟩⟩

end Threading

/-- Body by body, up to the first panic. -/
theorem flatMapRight_threads [∀ t, Inhabited (El t)]
    (chain : Chain (Builder.state (EStateM ε W) S El) s t) (i : Nat)
    (c : State (EStateM ε W) S (El s)) (st : S) (w : W) :
    ∃ events r, chain.Threading i c st w events r ∧ (chain.flatMapRight c).run st w = r ∧
      ∀ before, ((chain.recorded .state (i + 1)).flatMapRight (c.sealed i)).run st ⟨w, before⟩ =
        withRecord (before ++ events) r := by
  -- the run and its record are split alike, at the first body and at the call behind it
  induction chain generalizing i st w with
  | nil =>
    cases hc : c.run st w with
    | ok p w' => exact ⟨_, _, .finished i hc, hc, State.run_sealed_of_ok hc i⟩
    | error e w' => exact ⟨_, _, .broken .nil i hc, hc, State.run_sealed_of_error hc i⟩
  | cons k rest ih =>
    have hrun := congrFun (run_flatMapRight_cons k rest c st) w
    have hrecord (before : List (Event ε W)) :=
      congrFun (run_flatMapRight_cons (fun u => State.entered (i + 1) (k u))
        (rest.recorded .state (i + 2)) (c.sealed i) st) ⟨w, before⟩
    cases hc : c.run st w with
    | error e w' =>
      have hsealed (before : List (Event ε W)) := State.run_sealed_of_error hc i before
      exact ⟨_, _, .broken _ i hc, hrun.trans (bind_of_error hc _), fun before =>
        (hrecord before).trans (bind_of_error (hsealed before) _)⟩
    | ok p w₁ =>
      obtain ⟨v, st'⟩ := p
      have hsealed (before : List (Event ε W)) := State.run_sealed_of_ok hc i before
      cases hk : k v w₁ with
      | error e w₂ =>
        refine ⟨_, _, .panicked rest i hc hk, ?_, fun before => ?_⟩
        · exact hrun.trans ((bind_of_ok hc _).trans (bind_of_error hk _))
        · refine (hrecord before).trans ((bind_of_ok (hsealed before) _).trans ?_)
          rw [bind_of_error (State.entered_of_error hk (i + 1) _), List.append_assoc]
          rfl
      | ok d w₂ =>
        obtain ⟨events, r, hrest, hright, hrecorded⟩ := ih (i + 1) d st' w₂
        refine ⟨_, r, .passed hc hk hrest, ?_, fun before => ?_⟩
        · exact hrun.trans ((bind_of_ok hc _).trans ((bind_of_ok hk _).trans hright))
        · refine (hrecord before).trans ((bind_of_ok (hsealed before) _).trans ?_)
          rw [bind_of_ok (State.entered_of_ok hk (i + 1) _), hrecorded, List.append_assoc,
            List.append_assoc]
          rfl

end Chain

/-! ## The same step over and over -/

namespace State

variable [Monad m]

/-- `d` is `c`, `n` times, put together by `andThen` in some way. -/
inductive Repeats (c : State m S Unit) : (n : Nat) → (d : State m S Unit) → Prop where
  | once : Repeats c 1 c
  | andThen {j k : Nat} {front back : State m S Unit} (hfront : Repeats c j front)
      (hback : Repeats c k back) : Repeats c (j + k) (front.andThen back)

variable [LawfulMonad m]

/-- What is done over and over may be done behind something. -/
theorem iterate_bind (f : S → m S) (n : Nat) (x : m S) :
    (· >>= f)^[n] x = x >>= fun st => (· >>= f)^[n] (pure st) := by
  -- `x` is general, since an iteration puts its first round in front of the others
  induction n generalizing x with
  | zero => exact (bind_pure x).symm
  | succ n ih =>
    simp only [Function.iterate_succ_apply, pure_bind]
    rw [ih, bind_assoc]
    exact bind_congr fun st => (ih (f st)).symm

theorem iterate_pure (f : S → S) (n : Nat) (st : S) :
    (· >>= fun st => (pure (f st) : m S))^[n] (pure st) = pure (f^[n] st) := by
  induction n generalizing st with
  | zero => rfl
  | succ n ih => rw [Function.iterate_succ_apply, pure_bind, ih, Function.iterate_succ_apply]

/-- The function is called `n` times, each time on what the call before answered. -/
theorem Repeats.run_modify {f : S → m S} {n : Nat} {d : State m S Unit}
    (h : (modify f).Repeats n d) (st : S) :
    d.run st = (fun st' => ((), st')) <$> (· >>= f)^[n] (pure st) := by
  induction h generalizing st with
  | once => simp
  | @andThen j k front back hfront hback ihfront ihback =>
    calc (front.andThen back).run st
      _ = front.run st >>= fun p => back.run p.2 := by simp [State.andThen]
      _ = (· >>= f)^[j] (pure st) >>= fun st' =>
          (fun st'' => ((), st'')) <$> (· >>= f)^[k] (pure st') := by simp [ihfront, ihback]
      _ = (fun st' => ((), st')) <$> (· >>= f)^[j + k] (pure st) := by
        rw [Nat.add_comm, Function.iterate_add_apply, iterate_bind f k ((· >>= f)^[j] _), map_bind]

end State

/-! ## What a chain does -/

variable [∀ t, Inhabited (El t)]

/-- Both ways to nest a chain over states make one state transformer, and do nothing else; with a
record as without. -/
structure Chain.MakesOne (chain : Chain (Builder.state (EStateM ε W) S El) s t)
    (c : State (EStateM ε W) S (El s)) : Prop where
  left : chain.nestLeft c = pure (chain.flatMapLeft c)
  right : chain.nestRight c = pure (chain.flatMapRight c)
  recordedLeft : (chain.recorded .state 1).nestLeft (c.sealed 0) =
    pure ((chain.recorded .state 1).flatMapLeft (c.sealed 0))
  recordedRight : (chain.recorded .state 1).nestRight (c.sealed 0) =
    pure ((chain.recorded .state 1).flatMapRight (c.sealed 0))

/-- A run of a chain threads one state, whichever way the chain is nested: what happens in it, and
how it ends. -/
structure Chain.ThreadsOnce (chain : Chain (Builder.state (EStateM ε W) S El) s t)
    (c : State (EStateM ε W) S (El s)) (st : S) (w : W) (events : List (Event ε W))
    (r : EStateM.Result ε W (El t × S)) : Prop where
  /-- Each body is run from the state that the one before it left, and each continuation is called
  on the value that is there. -/
  threading : chain.Threading 0 c st w events r
  left : (chain.flatMapLeft c).run st w = r
  right : (chain.flatMapRight c).run st w = r
  /-- This is all that happens. -/
  recordedLeft (before : List (Event ε W)) :
    ((chain.recorded .state 1).flatMapLeft (c.sealed 0)).run st ⟨w, before⟩ =
      withRecord (before ++ events) r
  recordedRight (before : List (Event ε W)) :
    ((chain.recorded .state 1).flatMapRight (c.sealed 0)).run st ⟨w, before⟩ =
      withRecord (before ++ events) r
  /-- Each continuation is called behind the body before it, and its own body is run next. -/
  inOrder : events.map Event.mark <+: chain.threaded 0
  once : (chain.threaded 0).filterMap Mark.called? = List.range' 1 chain.length
  /-- A run that does not panic leaves nothing out. -/
  complete {p : El t × S} {w' : W} : r = .ok p w' → events.map Event.mark = chain.threaded 0
  /-- A run that panics does so in its last act. -/
  broken {e : ε} {w' : W} : r = .error e w' →
    ∃ before last, calls events = before ++ [last] ∧ (∀ call ∈ before, call.panic = none) ∧
      last.panic = some e ∧ last.after = w'

theorem Chain.makesOne (chain : Chain (Builder.state (EStateM ε W) S El) s t)
    (c : State (EStateM ε W) S (El s)) : chain.MakesOne c where
  left := chain.nestLeft_eq_pure c
  right := chain.nestRight_eq_pure c
  recordedLeft := nestLeft_eq_pure _ (c.sealed 0)
  recordedRight := nestRight_eq_pure _ (c.sealed 0)

theorem Chain.exists_threadsOnce (chain : Chain (Builder.state (EStateM ε W) S El) s t)
    (c : State (EStateM ε W) S (El s)) (st : S) (w : W) :
    ∃ events r, chain.ThreadsOnce c st w events r := by
  obtain ⟨events, r, hthreading, hright, hrecord⟩ := chain.flatMapRight_threads 0 c st w
  refine ⟨events, r, ?_⟩
  constructor
  case threading => exact hthreading
  case left => rw [run_flatMapLeft, hright]
  case right => exact hright
  case recordedLeft =>
    intro before
    rw [run_flatMapLeft]
    exact hrecord before
  case recordedRight => exact hrecord
  case inOrder => exact hthreading.marks_prefix
  case once => exact chain.called_threaded 0
  case complete =>
    intro p w' hr
    exact (hr ▸ hthreading).complete
  case broken =>
    intro e w' hr
    exact (hr ▸ hthreading).at_panic

/-- **Chains of state transformers thread one state.** Nesting a chain calls nothing. Every run of
what was made calls each continuation once, on the value of the body before it, and runs what it
answers from the state that this body left; the runs are the same if the chain is nested to the left
and if it is nested to the right. A sequencer of bind steps over one type makes the same after its
notice, if it finishes with the value that it has. Where every step changes the state by one
function, however the steps are put together, the function is called on the state as often as there
are steps. -/
theorem Chain.threads_state [Reports (EStateM ε W)] :
    (∀ {s t : ι} (chain : Chain (Builder.state (EStateM ε W) S El) s t)
        (c : State (EStateM ε W) S (El s)), chain.MakesOne c ∧
        ∀ (st : S) (w : W), ∃ events r, chain.ThreadsOnce c st w events r) ∧
    (∀ {t : ι} (ks : List (El t → EStateM ε W ((Builder.state (EStateM ε W) S El).Comp t)))
        (c : State (EStateM ε W) S (El t)), ∃ made recorded,
      (Sequencer.ofBinds ks).build c pure = (do
        report (.building "StateBuilder" ks.length)
        return made) ∧
      made.run = ((ofList ks).flatMapRight c).run ∧
      (Sequencer.ofBinds (Ledger.state.numbered 1 ks)).build (c.sealed 0) pure = (do
        report (.building "StateBuilder" ks.length)
        return recorded) ∧
      recorded.run = (((ofList ks).recorded .state 1).flatMapRight (c.sealed 0)).run) ∧
    (∀ {s t : ι} (c : State (EStateM ε W) S (El s)) (d : State (EStateM ε W) S (El t)),
      (Builder.state (EStateM ε W) S El).andThen c d = pure (c.andThen d)) ∧
    (∀ {f : S → EStateM ε W S} {n : Nat} {d : State (EStateM ε W) S Unit},
      (State.modify f).Repeats n d → ∀ st,
        d.run st = (fun st' => ((), st')) <$> (· >>= f)^[n] (pure st)) ∧
    ∀ {f : S → S} {n : Nat} {d : State (EStateM ε W) S Unit},
      (State.modify fun st => return f st).Repeats n d → ∀ st, d.run st = return ((), f^[n] st) := by
  refine ⟨fun chain c => ⟨chain.makesOne c, chain.exists_threadsOnce c⟩, fun ks c => ?_,
    fun _ _ => rfl, fun h st => h.run_modify st, fun h st => ?_⟩
  case refine_1 =>
    have hmade := Sequencer.build_ofBinds ks c pure
    have hrecorded := Sequencer.build_ofBinds (Ledger.state.numbered 1 ks) (c.sealed 0) pure
    rw [Ledger.length_numbered] at hrecorded
    refine ⟨c.flatMap ((Sequencer.ofBinds ks).continuation pure),
      (c.sealed 0).flatMap ((Sequencer.ofBinds (Ledger.state.numbered 1 ks)).continuation pure),
      hmade, Sequencer.run_continuation ks c, hrecorded, ?_⟩
    rw [recorded_ofList]
    exact Sequencer.run_continuation (Ledger.state.numbered 1 ks) (c.sealed 0)
  case refine_2 => rw [h.run_modify, State.iterate_pure, map_pure]

section
open Script

/-- Counts its calls, and answers what adds the state to the value. -/
def addState (u : Int64) : Act (State Act Int64 Int64) := do
  let _ ← Act.tick "calls"
  return ⟨fun st => return (u + st, st + 1)⟩

/-- Counts its calls, and answers what multiplies the value by the state, but gives up at zero. -/
def timesState (u : Int64) : Act (State Act Int64 Int64) := do
  let _ ← Act.tick "calls"
  return ⟨fun st => if st = 0 then throw .divisionByZero else return (u * st, st + 1)⟩

/-- The state, plus the state, times the state. -/
def climb : Chain (Builder.state Act Int64 Script.El) .int .int :=
  .cons (s := Ty.int) (u := Ty.int) addState
    (.cons (s := Ty.int) (u := Ty.int) timesState .nil)

/-- Starts with the state. -/
def getInt : State Act Int64 (Script.El .int) := .get

/-- Counts, and doubles the state. -/
def doubling (st : Int64) : Act Int64 := do
  let _ ← Act.tick "doubling"
  return 2 * st

theorem repeats_doubling : (State.modify doubling).Repeats 3
    (((State.modify doubling).andThen (.modify doubling)).andThen (.modify doubling)) :=
  .andThen (.andThen .once .once) .once

/-- From one the chain climbs to four, and the state to three; from minus one the state is zero
where the second step needs it. Three doublings make eight of one. -/
theorem climb_threads : ∃ w w' w'' events events',
    (climb.flatMapLeft getInt).run 1 Session.fresh = .ok ((4 : Int64), 3) w ∧
    ((climb.recorded .state 1).flatMapLeft (getInt.sealed 0)).run 1 ⟨Session.fresh, []⟩ =
      .ok ((4 : Int64), 3) ⟨w, events⟩ ∧
    events.map Event.mark = [.ran 0 false, .called 1, .ran 1 false, .called 2, .ran 2 false] ∧
    (climb.flatMapLeft getInt).run (-1) Session.fresh = .error .divisionByZero w' ∧
    ((climb.recorded .state 1).flatMapLeft (getInt.sealed 0)).run (-1) ⟨Session.fresh, []⟩ =
      .error .divisionByZero ⟨w', events'⟩ ∧
    events'.map Event.mark <+: [.ran 0 false, .called 1, .ran 1 false, .called 2, .ran 2 false] ∧
    (State.modify doubling).Repeats 3
      (((State.modify doubling).andThen (.modify doubling)).andThen (.modify doubling)) ∧
    (((State.modify doubling).andThen (.modify doubling)).andThen (.modify doubling)).run 1
      Session.fresh = .ok ((), 8) w'' ∧ w''.counters.find? "doubling" = some 3 := by
  obtain ⟨hchains, -, -, hmodify, -⟩ := @Chain.threads_state Ty Script.El Fault Session Int64 _ _
  have hup : (climb.flatMapLeft getInt).run 1 Session.fresh = .ok ((4 : Int64), 3) _ := rfl
  have hdown : (climb.flatMapLeft getInt).run (-1) Session.fresh = .error .divisionByZero _ := rfl
  obtain ⟨events, r, hthreads⟩ := (hchains climb getInt).2 1 Session.fresh
  obtain rfl := hthreads.left.symm.trans hup
  obtain ⟨events', r', hthreads'⟩ := (hchains climb getInt).2 (-1) Session.fresh
  obtain rfl := hthreads'.left.symm.trans hdown
  have htwice := congrFun (hmodify repeats_doubling 1) Session.fresh
  exact ⟨_, _, _, events, events', hup, hthreads.recordedLeft [], hthreads.complete rfl, hdown,
    hthreads'.recordedLeft [], hthreads'.inOrder, repeats_doubling, htwice.trans rfl, rfl⟩

end

end Workflow
