import Workflow.Proofs.Direct.Chains

/-!
# Chains of optional values stop at the first absence

Over optional values a bind calls its continuation at once, so a chain is executed while it is
nested. `Chain.Execution` says how: each continuation is called on the value that the one before it
answered, until one answers nothing or panics. Whether the binds are nested to the left or to the
right, or recorded by a sequencer, makes no difference, in any lawful host
(`nestLeft_eq_nestRight`, `build_eq_nestRight`); `nestRight_executes` follows the nesting whose
recursion is that of the execution.
-/

namespace Workflow

variable {m : Type → Type} {ι : Type} {El : ι → Type} {r s t : ι} {ε W : Type}

/-! ## One way to nest -/

section
variable [Monad m] [LawfulMonad m]

/-- Optional values are the same if nobody in direct style can tell them apart. -/
theorem Performance.eq_of_performed {x y : m ((Builder.optional m El).Comp t)}
    (h : optional.performed x = optional.performed y) : x = y :=
  (run_optional x).symm.trans ((congrArg OptionT.run h).trans (run_optional y))

theorem Chain.nestLeft_eq_nestRight (chain : Chain (Builder.optional m El) s t)
    (o : (Builder.optional m El).Comp s) : chain.nestLeft o = chain.nestRight o := by
  refine Performance.eq_of_performed ?_
  rw [Performance.performed_nestLeft, Performance.performed_nestRight]

/-- A sequencer reports, and then it is a chain. -/
theorem Sequencer.build_eq_nestRight [Reports m]
    (ks : List (El t → m ((Builder.optional m El).Comp t))) (o : (Builder.optional m El).Comp t) :
    (ofBinds ks).build o pure = (do
      report (.building "OptionBuilder" ks.length)
      (Chain.ofList ks).nestRight o) := by
  rw [build_ofBinds]
  refine bind_congr fun _ => Performance.eq_of_performed ?_
  exact Performance.performed_bind_continuation _ ks o

end

/-! ## Execution -/

/-- How a chain is executed that hangs on an optional value: the calls of its continuations, which
are numbered from `i` on, and how it ends. -/
inductive Chain.Execution : {s t : ι} → Chain (Builder.optional (EStateM ε W) El) s t → (i : Nat) →
    Option (El s) → W → List (Call ε W) → EStateM.Result ε W (Option (El t)) → Prop where
  /-- Where there is no value, nothing is called any more. -/
  | absent {s t : ι} (chain : Chain (Builder.optional (EStateM ε W) El) s t) (i : Nat) (w : W) :
    Execution chain i none w [] (.ok none w)
  /-- The value behind the last continuation is the result. -/
  | finished {t : ι} (i : Nat) (v : El t) (w : W) : Execution .nil i (some v) w [] (.ok (some v) w)
  /-- A continuation panics. -/
  | panicked {s u t : ι} {k : El s → EStateM ε W (Option (El u))}
      (rest : Chain (Builder.optional (EStateM ε W) El) u t) (i : Nat) {v : El s} {w w' : W} {e : ε}
      (hk : k v w = .error e w') :
    Execution (.cons k rest) i (some v) w [⟨i, w, w', some e⟩] (.error e w')
  /-- A continuation is called on the value, and the others go on with what it answers. -/
  | called {s u t : ι} {k : El s → EStateM ε W (Option (El u))}
      {rest : Chain (Builder.optional (EStateM ε W) El) u t} {i : Nat} {v : El s} {w w' : W}
      {o : Option (El u)} {calls : List (Call ε W)} {r : EStateM.Result ε W (Option (El t))}
      (hk : k v w = .ok o w') (hrest : Execution rest (i + 1) o w' calls r) :
    Execution (.cons k rest) i (some v) w (⟨i, w, w', none⟩ :: calls) r

namespace Chain.Execution

variable {chain : Chain (Builder.optional (EStateM ε W) El) s t} {i : Nat} {o : Option (El s)}
  {w : W} {calls : List (Call ε W)} {r : EStateM.Result ε W (Option (El t))}

/-- Each continuation is called at most once, and in its place. -/
theorem numbered (h : chain.Execution i o w calls r) :
    calls.map Call.closure = List.range' i calls.length := by
  induction h with
  | absent | finished => rfl
  | panicked => rfl
  | called _ _ ih => exact congrArg (_ :: ·) ih

theorem at_absence (h : chain.Execution i none w calls r) : calls = [] ∧ r = .ok none w := by
  cases h
  exact ⟨rfl, rfl⟩

/-- Where there is a value in the end, all continuations were called. -/
theorem complete {v : El t} {w' : W} (h : chain.Execution i o w calls (.ok (some v) w')) :
    calls.length = chain.length := by
  generalize hr : EStateM.Result.ok (some v) w' = r at h
  induction h with
  | absent | panicked => cases hr
  | finished => rfl
  | called _ _ ih => exact congrArg (· + 1) (ih hr)

end Chain.Execution

/-- How a chain ends that breaks off: with nothing, or with a panic. -/
def brokenOff {α : Type} (panic : Option ε) (w : W) : EStateM.Result ε W (Option α) :=
  match panic with
  | none => .ok none w
  | some e => .error e w

/-- The chain is passed up to a continuation, which is called and breaks off; its call is the last
one. -/
inductive Chain.BreaksOff (chain : Chain (Builder.optional (EStateM ε W) El) s t) (i : Nat)
    (o : Option (El s)) (w : W) (calls : List (Call ε W)) (panic : Option ε) (w' : W) : Prop where
  | at_ {r u : ι} (front : Chain (Builder.optional (EStateM ε W) El) s r)
    (k : El r → EStateM ε W (Option (El u)))
    (back : Chain (Builder.optional (EStateM ε W) El) u t) {before : List (Call ε W)} {v : El r}
    {w₁ : W} (hchain : chain = front.append (.cons k back))
    (hfront : front.Execution i o w before (.ok (some v) w₁)) (hk : k v w₁ = brokenOff panic w')
    (hcalls : calls = before ++ [⟨i + before.length, w₁, w', panic⟩])

namespace Chain

variable {k : El s → EStateM ε W (Option (El r))}
  {rest : Chain (Builder.optional (EStateM ε W) El) r t} {i : Nat} {v : El s} {w w' w'' : W}
  {panic : Option ε} {calls : List (Call ε W)}

theorem BreaksOff.first (hk : k v w = brokenOff panic w') :
    (cons k rest).BreaksOff i (some v) w [⟨i, w, w', panic⟩] panic w' :=
  .at_ .nil k rest rfl (.finished i v w) hk rfl

theorem BreaksOff.later {o : Option (El r)} (hk : k v w = .ok o w')
    (h : rest.BreaksOff (i + 1) o w' calls panic w'') :
    (cons k rest).BreaksOff i (some v) w (⟨i, w, w', none⟩ :: calls) panic w'' := by
  obtain ⟨front, k', back, rfl, hfront, hk', rfl⟩ := h
  refine .at_ (.cons k front) k' back rfl (.called hk hfront) hk' ?_
  rw [List.length_cons, ← Nat.add_assoc, Nat.add_right_comm]
  rfl

/-- A chain that does not come to a value breaks off at one of its continuations. -/
theorem Execution.breaks {chain : Chain (Builder.optional (EStateM ε W) El) s t} {o : Option (El s)}
    {r : EStateM.Result ε W (Option (El t))} (h : chain.Execution i o w calls r)
    (ho : o ≠ none) (hr : r = brokenOff panic w') : chain.BreaksOff i o w calls panic w' := by
  induction h with
  | absent => exact absurd rfl ho
  | finished i v w =>
    cases panic <;> cases hr
  | panicked rest i hk =>
    cases panic with
    | none => cases hr
    | some e =>
      cases hr
      exact .first hk
  | @called _ _ _ _ _ _ _ _ _ o _ _ hk hrest ih =>
    cases o with
    | none =>
      obtain ⟨rfl, rfl⟩ := hrest.at_absence
      cases panic with
      | none =>
        cases hr
        exact .first hk
      | some e => cases hr
    | some v => exact (ih nofun hr).later hk

end Chain

/-! ## The record -/

/-- Every call is recorded. -/
def Ledger.calls :
    Ledger (Builder.optional (EStateM ε W) El) (Builder.optional (Chronicled ε W) El) where
  enter := Chronicled.calling
  Twins := Eq
  enter_shadows := Shadows.calling
  pure_twins := Ledger.optional.pure_twins
  bind_shadows := Ledger.optional.bind_shadows

namespace Chain

/-- Call by call, up to the first absence or panic. -/
theorem nestRight_executes (chain : Chain (Builder.optional (EStateM ε W) El) s t) (i : Nat)
    (o : Option (El s)) (w : W) : ∃ calls r, chain.Execution i o w calls r ∧
      chain.nestRight o w = r ∧ ∀ before,
        (chain.recorded .calls i).nestRight o ⟨w, before⟩ =
          withRecord (before ++ calls.map .called) r := by
  induction chain generalizing i w with
  | nil =>
    refine ⟨[], .ok o w, ?_, rfl, fun before => ?_⟩
    · cases o with
      | none => exact .absent .nil i w
      | some v => exact .finished i v w
    · rw [List.map_nil, List.append_nil]
      rfl
  | cons k rest ih =>
    cases o with
    | none =>
      refine ⟨[], .ok none w, .absent _ i w, rfl, fun before => ?_⟩
      rw [List.map_nil, List.append_nil]
      rfl
    | some v =>
      cases hk : k v w with
      | ok o w' =>
        obtain ⟨calls, r, hrest, hright, hrecord⟩ := ih (i + 1) o w'
        refine ⟨_, r, .called hk hrest, (bind_of_ok hk _).trans hright, fun before => ?_⟩
        refine (bind_of_ok (Chronicled.calling_of_ok hk i before) _).trans ?_
        rw [hrecord, List.append_assoc]
        rfl
      | error e w' =>
        refine ⟨_, _, .panicked rest i hk, bind_of_error hk _, fun before => ?_⟩
        exact bind_of_error (Chronicled.calling_of_error hk i before) _

end Chain

/-- With its calls recorded, a sequencer still is a chain. -/
theorem Sequencer.build_numbered [Reports (EStateM ε W)]
    (ks : List (El t → EStateM ε W ((Builder.optional (EStateM ε W) El).Comp t)))
    (o : (Builder.optional (Chronicled ε W) El).Comp t) (i : Nat) :
    (ofBinds (Ledger.calls.numbered i ks)).build o pure = (do
      report (.building "OptionBuilder" ks.length)
      ((Chain.ofList ks).recorded .calls i).nestRight o) := by
  rw [build_eq_nestRight, Ledger.length_numbered, Chain.recorded_ofList]

/-! ## What a chain does -/

/-- A chain stops at the first absence or panic, however it is nested: what is called, and how it
ends. -/
structure Chain.ShortCircuits (chain : Chain (Builder.optional (EStateM ε W) El) s t)
    (o : Option (El s)) (w : W) (calls : List (Call ε W))
    (r : EStateM.Result ε W (Option (El t))) : Prop where
  /-- Each continuation is called on what the one before it answered. -/
  execution : chain.Execution 1 o w calls r
  left : chain.nestLeft o w = r
  right : chain.nestRight o w = r
  /-- These are all calls. -/
  recordedLeft (before : List (Event ε W)) : (chain.recorded .calls 1).nestLeft o ⟨w, before⟩ =
    withRecord (before ++ calls.map .called) r
  recordedRight (before : List (Event ε W)) : (chain.recorded .calls 1).nestRight o ⟨w, before⟩ =
    withRecord (before ++ calls.map .called) r
  /-- The first ones of the continuations are called, once each and in order. -/
  numbered : calls.map Call.closure = List.range' 1 calls.length
  absent : o = none → calls = [] ∧ r = .ok none w
  /-- If there is a value in the end, all continuations are called. -/
  complete {v : El t} {w' : W} : r = .ok (some v) w' → calls.length = chain.length
  /-- Otherwise one of them breaks off, by answering nothing or by a panic, and those before it have
  answered values. -/
  broken {panic : Option ε} {w' : W} : o ≠ none → r = brokenOff panic w' →
    chain.BreaksOff 1 o w calls panic w'

/-- **Chains of optional values stop at the first absence.** From every start and in every world, a
chain calls its continuations in order, each once and on the value that the one before it answered,
up to the first one that answers nothing or panics; it makes the same calls and ends in the same way
if it is nested to the left and if it is nested to the right. A sequencer of bind steps over one
type does the same after its notice, if it finishes with the value that it has. -/
theorem Chain.short_circuits [Reports (EStateM ε W)] :
    (∀ {s t : ι} (chain : Chain (Builder.optional (EStateM ε W) El) s t) (o : Option (El s))
        (w : W), ∃ calls r, chain.ShortCircuits o w calls r) ∧
    ∀ {t : ι} (ks : List (El t → EStateM ε W (Option (El t)))) (o : Option (El t)),
      (Sequencer.ofBinds ks : Sequencer (Builder.optional _ El) t).build o pure = (do
        report (.building "OptionBuilder" ks.length)
        (ofList ks : Chain (Builder.optional _ El) t t).nestRight o) ∧
      (Sequencer.ofBinds (Ledger.calls.numbered 1 ks) :
          Sequencer (Builder.optional (Chronicled ε W) El) t).build o pure = (do
        report (.building "OptionBuilder" ks.length)
        ((ofList ks : Chain (Builder.optional _ El) t t).recorded .calls 1).nestRight o) := by
  constructor
  case left =>
    intro s t chain o w
    obtain ⟨calls, r, hexecution, hright, hrecord⟩ := chain.nestRight_executes 1 o w
    refine ⟨calls, r, ?_⟩
    constructor
    case execution => exact hexecution
    case left => exact (congrFun (chain.nestLeft_eq_nestRight o) w).trans hright
    case right => exact hright
    case recordedLeft =>
      intro before
      exact (congrFun (nestLeft_eq_nestRight _ o) _).trans (hrecord before)
    case recordedRight => exact hrecord
    case numbered => exact hexecution.numbered
    case absent =>
      intro ho
      subst ho
      exact hexecution.at_absence
    case complete =>
      intro v w' hr
      exact (hr ▸ hexecution).complete
    case broken =>
      intro panic w' ho hr
      exact hexecution.breaks ho hr
  case right =>
    intro t ks o
    exact ⟨Sequencer.build_eq_nestRight ks o, Sequencer.build_numbered ks o 1⟩

end Workflow
