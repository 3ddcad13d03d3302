import Workflow.Cancellable

/-!
# Chronicles: runs that leave a record

User code runs in a world `W` and may panic with an `ε`, so it is an act of the host `EStateM ε W`,
and so is asking a signal that user code can change. The host `Chronicled ε W` adds a record to the
world: the answers that checkpoints got, the calls of user code, the times at which a bind started
its bound task and got it back, and the notices of the library. Only the record is added: a leaf's
own function asks its signal behind the record's back (`Signal.bare`), and what user code does is
done in the world alone.

`Shadows R x y` says that the chronicled act `x` does to the world what the act `y` does, panics
included, with results that `R` relates, whatever the record says already. It is closed under
sequencing (`Shadows.bind`) and under the bind of tasks (`Cancellable.Twins.flatMap`), which is
how a computation in the one host is compared with its twin in the other.
-/

namespace Workflow

/-- A call of user code: the closure's number, the world before and after, and the panic, if any. -/
structure Call (ε W : Type) where
  closure : Nat
  before : W
  after : W
  panic : Option ε

/-- What a record holds. -/
inductive Event (ε W : Type) where
  /-- A checkpoint asked the signal and got this answer. -/
  | looked (answer : Bool)
  /-- A thunk, a continuation or another closure was called. -/
  | called (call : Call ε W)
  /-- A leaf's own function was run; it says whether it was cut short. -/
  | ran (call : Call ε W) (cancelled : Bool)
  /-- A bind started its bound task. -/
  | opened
  /-- A bind got its bound task back. -/
  | closed
  /-- The library reported. -/
  | noticed (n : Notice)

/-- An event without the worlds in which it happened. -/
inductive Mark where
  | looked (answer : Bool)
  | called (closure : Nat)
  | ran (closure : Nat) (cancelled : Bool)
  | opened
  | closed
  | noticed (n : Notice)
  deriving DecidableEq, Repr

namespace Mark

/-- The answer that a checkpoint got. -/
def look? : Mark → Option Bool
  | looked answer => some answer
  | _ => none

/-- The closure that was called. -/
def called? : Mark → Option Nat
  | called closure => some closure
  | _ => none

end Mark

variable {ε W α β γ δ : Type}

namespace Event

def mark : Event ε W → Mark
  | looked answer => .looked answer
  | called call => .called call.closure
  | ran call cancelled => .ran call.closure cancelled
  | opened => .opened
  | closed => .closed
  | noticed n => .noticed n

/-- The answer that a checkpoint got. -/
def look? : Event ε W → Option Bool
  | looked answer => some answer
  | _ => none

/-- The call of user code. -/
def call? : Event ε W → Option (Call ε W)
  | called call => some call
  | ran call _ => some call
  | _ => none

end Event

/-- The answers that checkpoints got, in order. -/
def looks (events : List (Event ε W)) : List Bool := events.filterMap Event.look?

theorem looks_eq_marks (events : List (Event ε W)) :
    looks events = (events.map Event.mark).filterMap Mark.look? := by
  unfold looks
  rw [List.filterMap_map]
  refine congrArg (List.filterMap · events) (funext fun event => ?_)
  cases event <;> rfl

/-- The calls of user code, in order. -/
def calls (events : List (Event ε W)) : List (Call ε W) := events.filterMap Event.call?

/-- A world and the record of what has happened in it. -/
structure Chronicle (ε W : Type) where
  world : W
  events : List (Event ε W)

/-- The host that keeps a record. -/
abbrev Chronicled (ε W : Type) := EStateM ε (Chronicle ε W)

namespace Chronicled

/-- Adds an event to the record. -/
def note (event : Event ε W) : Chronicled ε W Unit := fun c =>
  .ok () { c with events := c.events ++ [event] }

/-- An act in the world that leaves no record. -/
def quietly (act : EStateM ε W α) : Chronicled ε W α := fun c =>
  match act c.world with
  | .ok a w => .ok a { c with world := w }
  | .error e w => .error e { c with world := w }

/-- An act of user code, recorded by the entry that `entry` makes of the call and its result. -/
def performing (closure : Nat) (entry : Call ε W → Option α → Event ε W) (act : EStateM ε W α) :
    Chronicled ε W α := fun c =>
  match act c.world with
  | .ok a w => .ok a ⟨w, c.events ++ [entry ⟨closure, c.world, w, none⟩ (some a)]⟩
  | .error e w => .error e ⟨w, c.events ++ [entry ⟨closure, c.world, w, some e⟩ none]⟩

/-- A call of a closure. -/
def calling (closure : Nat) (act : EStateM ε W α) : Chronicled ε W α :=
  performing closure (fun call _ => .called call) act

/-- A chronicled host listens, and so does the host below it. -/
instance [Reports (EStateM ε W)] : Reports (Chronicled ε W) :=
  ⟨fun n => do note (.noticed n); quietly (report n)⟩

end Chronicled

open Chronicled

namespace Signal

/-- A signal of the world; its answers to checkpoints are recorded. -/
def chronicled (signal : Signal (EStateM ε W)) : Signal (Chronicled ε W) :=
  watched ⟨quietly signal.poll⟩ fun answer => note (.looked answer)

/-- The signal as a leaf's own function asks it: no record is kept. -/
def bare (signal : Signal (Chronicled ε W)) : Signal (EStateM ε W) :=
  ⟨fun w => match signal.poll ⟨w, []⟩ with
    | .ok answer c => .ok answer c.world
    | .error e c => .error e c.world⟩

/-- A signal that gives its answers in turn; the record shows how many it has given. -/
def answering (answers : Nat → Bool) : Signal (Chronicled ε W) :=
  watched ⟨fun c => .ok (answers (looks c.events).length) c⟩ fun answer => note (.looked answer)

theorem bare_chronicled (signal : Signal (EStateM ε W)) : signal.chronicled.bare = signal := by
  obtain ⟨poll⟩ := signal
  refine congrArg Signal.mk (funext fun w => ?_)
  show (match EStateM.bind (quietly poll) _ ⟨w, []⟩ with
    | .ok answer c => EStateM.Result.ok answer c.world
    | .error e c => .error e c.world) = poll w
  unfold EStateM.bind quietly
  cases poll w <;> rfl

end Signal

namespace Cancellable

/-- A task with a function of its own. -/
def leaf (closure : Nat) (f : Signal (EStateM ε W) → EStateM ε W (Ending α)) :
    Cancellable (Chronicled ε W) α :=
  ⟨fun signal => performing closure (fun call ending => .ran call (ending.any Ending.cancelled))
    (f signal.bare)⟩

theorem run_leaf (closure : Nat) (f : Signal (EStateM ε W) → EStateM ε W (Ending α))
    (signal : Signal (Chronicled ε W)) :
    (leaf closure f).run signal = performing closure
      (fun call ending => .ran call (ending.any Ending.cancelled)) (f signal.bare) := rfl

/-- A task whose inside leaves no record: it is run like a leaf. -/
def sealed (c : Cancellable (EStateM ε W) α) (closure : Nat) : Cancellable (Chronicled ε W) α :=
  leaf closure c.run

/-- A bound task: its start and its end are recorded. -/
def bound (c : Cancellable (Chronicled ε W) α) : Cancellable (Chronicled ε W) α :=
  ⟨fun signal => do
    note .opened
    let ending ← c.run signal
    note .closed
    return ending⟩

end Cancellable

/-! ## Acts one after the other -/

theorem bind_of_ok {x : EStateM ε W α} {w w' : W} {a : α} (h : x w = .ok a w')
    (f : α → EStateM ε W β) : (x >>= f) w = f a w' := by
  show EStateM.bind x f w = f a w'
  unfold EStateM.bind
  rw [h]

theorem bind_of_error {x : EStateM ε W α} {w w' : W} {e : ε} (h : x w = .error e w')
    (f : α → EStateM ε W β) : (x >>= f) w = .error e w' := by
  show EStateM.bind x f w = .error e w'
  unfold EStateM.bind
  rw [h]

theorem exists_of_bind_ok {x : EStateM ε W α} {f : α → EStateM ε W β} {w w' : W} {b : β}
    (h : (x >>= f) w = .ok b w') : ∃ a w₁, x w = .ok a w₁ ∧ f a w₁ = .ok b w' := by
  change EStateM.bind x f w = _ at h
  unfold EStateM.bind at h
  split at h
  · exact ⟨_, _, ‹_›, h⟩
  · cases h

theorem exists_of_map_ok {x : EStateM ε W α} {f : α → β} {w w' : W} {b : β}
    (h : (f <$> x) w = .ok b w') : ∃ a, x w = .ok a w' ∧ f a = b := by
  rw [map_eq_pure_bind] at h
  obtain ⟨a, w₁, hx, hf⟩ := exists_of_bind_ok h
  cases hf
  exact ⟨a, hx, rfl⟩

/-- How an act ends in the host that keeps a record. -/
def withRecord (events : List (Event ε W)) :
    EStateM.Result ε W α → EStateM.Result ε (Chronicle ε W) α
  | .ok a w => .ok a ⟨w, events⟩
  | .error e w => .error e ⟨w, events⟩

namespace Chronicled

theorem performing_of_ok {act : EStateM ε W α} {w w' : W} {a : α} (h : act w = .ok a w') (i : Nat)
    (entry : Call ε W → Option α → Event ε W) (before : List (Event ε W)) :
    performing i entry act ⟨w, before⟩ =
      .ok a ⟨w', before ++ [entry ⟨i, w, w', none⟩ (some a)]⟩ := by
  simp only [performing, h]

theorem performing_of_error {act : EStateM ε W α} {w w' : W} {e : ε} (h : act w = .error e w')
    (i : Nat) (entry : Call ε W → Option α → Event ε W) (before : List (Event ε W)) :
    performing i entry act ⟨w, before⟩ =
      .error e ⟨w', before ++ [entry ⟨i, w, w', some e⟩ none]⟩ := by
  simp only [performing, h]

theorem calling_of_ok {act : EStateM ε W α} {w w' : W} {a : α} (h : act w = .ok a w')
    (i : Nat) (before : List (Event ε W)) : calling i act ⟨w, before⟩ =
      .ok a ⟨w', before ++ [.called ⟨i, w, w', none⟩]⟩ :=
  performing_of_ok h i _ before

theorem calling_of_error {act : EStateM ε W α} {w w' : W} {e : ε} (h : act w = .error e w')
    (i : Nat) (before : List (Event ε W)) : calling i act ⟨w, before⟩ =
      .error e ⟨w', before ++ [.called ⟨i, w, w', some e⟩]⟩ :=
  performing_of_error h i _ before

end Chronicled

/-! ## Two hosts, one course -/

/-- The same outcome in the same world, the one with a record and the other without. -/
inductive SameOutcome (R : α → β → Prop) :
    EStateM.Result ε (Chronicle ε W) α → EStateM.Result ε W β → Prop where
  | ok {a b} (c : Chronicle ε W) (h : R a b) : SameOutcome R (.ok a c) (.ok b c.world)
  | error (e : ε) (c : Chronicle ε W) : SameOutcome R (.error e c) (.error e c.world)

/-- `x` does to the world what `y` does. -/
def Shadows (R : α → β → Prop) (x : Chronicled ε W α) (y : EStateM ε W β) : Prop :=
  ∀ c, SameOutcome R (x c) (y c.world)

namespace Shadows

variable {R : α → β → Prop} {S : γ → δ → Prop}

/-- What happens in the world is found again, with its record. -/
theorem exists_record {x : Chronicled ε W α} {y : EStateM ε W β} (h : Shadows R x y) {w w' : W}
    {b : β} (hy : y w = .ok b w') (before : List (Event ε W)) :
    ∃ a events, x ⟨w, before⟩ = .ok a ⟨w', events⟩ ∧ R a b := by
  have hxy := h ⟨w, before⟩
  rw [hy] at hxy
  generalize x ⟨w, before⟩ = p at hxy ⊢
  cases hxy with
  | @ok a _ c hab => exact ⟨a, c.events, rfl, hab⟩

theorem pure {a : α} {b : β} (h : R a b) :
    Shadows R (Pure.pure a : Chronicled ε W α) (Pure.pure b) :=
  fun c => .ok c h

theorem bind {x : Chronicled ε W α} {y : EStateM ε W β} {f : α → Chronicled ε W γ}
    {g : β → EStateM ε W δ} (h : Shadows R x y) (hf : ∀ a b, R a b → Shadows S (f a) (g b)) :
    Shadows S (x >>= f) (y >>= g) := by
  intro c
  show SameOutcome S (EStateM.bind x f c) (EStateM.bind y g c.world)
  unfold EStateM.bind
  generalize hx : x c = p, hy : y c.world = q
  have hpq : SameOutcome R p q := hx ▸ hy ▸ h c
  cases hpq with
  | ok c' hab => exact hf _ _ hab c'
  | error e c' => exact .error e c'

theorem map {x : Chronicled ε W α} {y : EStateM ε W β} {f : α → γ} {g : β → δ}
    (h : Shadows R x y) (hf : ∀ a b, R a b → S (f a) (g b)) : Shadows S (f <$> x) (g <$> y) := by
  rw [map_eq_pure_bind, map_eq_pure_bind]
  exact h.bind fun a b hab => .pure (hf a b hab)

theorem bind_same {x : Chronicled ε W α} {y : EStateM ε W α} {f : α → Chronicled ε W γ}
    {g : α → EStateM ε W δ} (h : Shadows Eq x y) (hf : ∀ a, Shadows S (f a) (g a)) :
    Shadows S (x >>= f) (y >>= g) := by
  refine h.bind fun a b hab => ?_
  subst hab
  exact hf a

theorem map_same {x : Chronicled ε W α} {y : EStateM ε W α} {f : α → γ} {g : α → δ}
    (h : Shadows Eq x y) (hf : ∀ a, S (f a) (g a)) : Shadows S (f <$> x) (g <$> y) := by
  refine h.map fun a b hab => ?_
  subst hab
  exact hf a

/-- A chronicled act may make more of its result. -/
theorem map_left {x : Chronicled ε W α} {y : EStateM ε W δ} {S : γ → δ → Prop} {R : α → δ → Prop}
    {f : α → γ} (h : Shadows R x y) (hf : ∀ a b, R a b → S (f a) b) : Shadows S (f <$> x) y := by
  have hid : Shadows S (f <$> x) (id <$> y) := h.map hf
  rwa [id_map] at hid

/-- An event leaves no trace in the world. -/
theorem note_bind {event : Event ε W} {x : Chronicled ε W α} {y : EStateM ε W β}
    (h : Shadows R x y) : Shadows R (note event >>= fun _ => x) y :=
  fun c => h { c with events := c.events ++ [event] }

theorem bind_note {event : α → Event ε W} {x : Chronicled ε W α} {y : EStateM ε W β}
    (h : Shadows R x y) :
    Shadows R (x >>= fun a => note (event a) >>= fun _ => Pure.pure a) y := by
  have h' := h.bind (S := R) (f := fun a => note (event a) >>= fun _ => Pure.pure a)
    (g := Pure.pure) fun a b hab => (Shadows.pure hab).note_bind
  rwa [bind_pure] at h'

theorem quietly (act : EStateM ε W α) : Shadows Eq (Chronicled.quietly act) act := by
  intro c
  unfold Chronicled.quietly
  cases act c.world with
  | ok a w => exact .ok { c with world := w } rfl
  | error e w => exact .error e { c with world := w }

theorem performing (closure : Nat) (entry : Call ε W → Option α → Event ε W)
    (act : EStateM ε W α) : Shadows Eq (Chronicled.performing closure entry act) act := by
  intro c
  unfold Chronicled.performing
  cases act c.world with
  | ok a w => exact .ok ⟨w, _⟩ rfl
  | error e w => exact .error e ⟨w, _⟩

theorem calling (closure : Nat) (act : EStateM ε W α) :
    Shadows Eq (Chronicled.calling closure act) act :=
  performing closure _ act

theorem report [Reports (EStateM ε W)] (n : Notice) :
    Shadows Eq (Reports.report n : Chronicled ε W Unit) (Reports.report n) :=
  (quietly _).note_bind

theorem poll (signal : Signal (EStateM ε W)) : Shadows Eq signal.chronicled.poll signal.poll :=
  (quietly signal.poll).bind_note

end Shadows

namespace Cancellable

/-- Under every signal, `c` runs as `d` does. -/
def Twins (c : Cancellable (Chronicled ε W) α) (d : Cancellable (EStateM ε W) α) : Prop :=
  ∀ signal, Shadows Eq (c.run signal.chronicled) (d.run signal)

namespace Twins

theorem ofValue (a : α) :
    Twins (.ofValue a : Cancellable (Chronicled ε W) α) (.ofValue a) := fun _ => .pure rfl

theorem delay (closure : Nat) (work : EStateM ε W α) :
    Twins (.delay (calling closure work)) (.delay work) := by
  intro signal
  exact (Shadows.calling closure work).bind_same fun _ => .pure rfl

theorem leaf (closure : Nat) (f : Signal (EStateM ε W) → EStateM ε W (Ending α)) :
    Twins (Cancellable.leaf closure f) ⟨f⟩ := by
  intro signal
  rw [run_leaf, Signal.bare_chronicled]
  exact Shadows.performing closure _ (f signal)

/-- A closure that answers a task, and the task, which leaves a record as a whole. -/
theorem calling_sealed (closure : Nat) (act : EStateM ε W (Cancellable (EStateM ε W) α)) :
    Shadows Twins ((Cancellable.sealed · closure) <$> calling closure act) act := by
  refine (Shadows.calling closure act).map_left fun c d hcd => ?_
  subst hcd
  exact .leaf closure c.run

theorem bound {c : Cancellable (Chronicled ε W) α} {d : Cancellable (EStateM ε W) α}
    (h : c.Twins d) : c.bound.Twins d :=
  fun signal => (h signal).bind_note.note_bind

variable [Reports (EStateM ε W)] {ι : Type} [DecidableEq ι] {El : ι → Type}
  [∀ t, Inhabited (El t)] {s t : ι}

theorem stop (at_ : Checkpoint) (a : α) :
    Shadows Eq (Cancellable.stop at_ a : Chronicled ε W (Ending α)) (Cancellable.stop at_ a) :=
  (Shadows.report _).bind fun _ _ _ => .pure rfl

theorem flatMap {c : Cancellable (Chronicled ε W) (El s)} {d : Cancellable (EStateM ε W) (El s)}
    {k : El s → Chronicled ε W (Cancellable (Chronicled ε W) (El t))}
    {k' : El s → EStateM ε W (Cancellable (EStateM ε W) (El t))} (h : c.Twins d)
    (hk : ∀ u, Shadows Twins (k u) (k' u)) : (c.flatMap k).Twins (d.flatMap k') := by
  intro signal
  rw [run_flatMap, run_flatMap]
  refine (Shadows.poll signal).bind_same fun early => ?_
  split
  · exact stop _ _
  refine (h signal).bind_same fun ending => ?_
  split
  · exact stop _ _
  refine (Shadows.poll signal).bind_same fun meanwhile => ?_
  split
  · exact stop _ _
  refine (hk ending.value).bind fun next next' hnext => ?_
  refine (Shadows.poll signal).bind_same fun late => ?_
  split
  · exact stop _ _
  · exact hnext signal

end Twins

end Cancellable

end Workflow
