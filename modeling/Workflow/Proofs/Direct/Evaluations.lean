import Workflow.Proofs.Chronicle.Adds
import Workflow.Proofs.Direct.Performance

/-!
# When the expressions of a block are evaluated

Number the expressions of a block from the top. `Block.recorded` is the block in the host that keeps
a record: each expression leaves its number when it is evaluated. How the computations themselves
are entered depends on the builder, and a `Ledger` says it; in any case the record shows what
happens (`recorded_shadows`).

Over optional values all expressions are evaluated while the block is built, up to the first one
whose computation is absent (`build_exits`). Over states the block is built when the first
computation is there: building leaves the record of the expressions up to that one
(`Block.opening`), and every run leaves the record of the others (`Block.following`), between which
the computations are run (`build_opens`).
-/

namespace Workflow

variable {ι : Type} {El : ι → Type} {Env : Type} {s t : ι}

namespace Block

section
variable {m : Type → Type} {b : Builder m El}

/-- The number of expressions. -/
def length : Block b Env t → Nat
  | bind _ _ rest | define _ rest | yield _ _ rest => rest.length + 1
  | result _ | finish _ => 1

/-- The record of all expressions, those of computations with the mark of a task. -/
def evaluations : (i : Nat) → Block b Env t → List Mark
  | i, bind _ _ rest => .ran i false :: rest.evaluations (i + 1)
  | i, define _ rest | i, yield _ _ rest => .called i :: rest.evaluations (i + 1)
  | i, result _ => [.called i]
  | i, finish _ => [.ran i false]

/-- The record of the expressions up to the first computation. -/
def opening : (i : Nat) → Block b Env t → List Mark
  | i, define _ rest | i, yield _ _ rest => .called i :: rest.opening (i + 1)
  | i, bind _ _ _ | i, result _ | i, finish _ => [.called i]

/-- The record of a run of that computation and of what is evaluated and run behind it. -/
def following : (i : Nat) → Block b Env t → List Mark
  | i, bind _ _ rest => .ran i false :: (rest.opening (i + 1) ++ rest.following (i + 1))
  | i, define _ rest | i, yield _ _ rest => rest.following (i + 1)
  | _, result _ => []
  | i, finish _ => [.ran i false]

/-- Each expression is evaluated once, in order: first those of the opening, then the others. -/
theorem called_opening_following (i : Nat) (block : Block b Env t) :
    (block.opening i).filterMap Mark.called? ++ (block.following i).filterMap Mark.called? =
      List.range' i block.length := by
  induction block generalizing i with
  | bind comp extend rest ih =>
    simp [opening, following, length, Mark.called?, List.range'_succ, ← ih, List.filterMap_cons]
  | define extend rest ih | yield merges value rest ih =>
    simp [opening, following, length, Mark.called?, List.range'_succ, ← ih]
  | result value | finish comp => simp [opening, following, length, Mark.called?]

end

end Block

/-! ## Blocks with a record -/

section
variable {ε W : Type} {b : Builder (EStateM ε W) El} {b' : Builder (Chronicled ε W) El}

/-- How the computations of `b` are recorded: by computations of `b'` that do the same. -/
structure Ledger (b : Builder (EStateM ε W) El) (b' : Builder (Chronicled ε W) El) where
  /-- Evaluates an expression that makes a computation, and enters it under its number. -/
  enter {s : ι} : Nat → EStateM ε W (b.Comp s) → Chronicled ε W (b'.Comp s)
  /-- The one does what the other does, and records it. -/
  Twins {s : ι} : b'.Comp s → b.Comp s → Prop
  enter_shadows {s : ι} (i : Nat) (act : EStateM ε W (b.Comp s)) :
    Shadows Twins (enter i act) act
  pure_twins {s : ι} (u : El s) : Twins (b'.pure u) (b.pure u)
  bind_shadows {s t : ι} {c : b'.Comp s} {d : b.Comp s} {k : El s → Chronicled ε W (b'.Comp t)}
    {k' : El s → EStateM ε W (b.Comp t)} (h : Twins c d) (hk : ∀ u, Shadows Twins (k u) (k' u)) :
    Shadows Twins (b'.bind c k) (b.bind d k')

/-- The same block with a record of its expressions, numbered from `i` on. -/
def Block.recorded (ledger : Ledger b b') (hb : ¬ b.Merges) :
    (i : Nat) → Block b Env t → Block b' Env t
  | i, bind comp extend rest =>
    bind (fun env => ledger.enter i (comp env)) extend (rest.recorded ledger hb (i + 1))
  | i, define extend rest =>
    define (fun env => Chronicled.calling i (extend env)) (rest.recorded ledger hb (i + 1))
  | _, yield merges _ _ => (hb merges).elim
  | i, result value => result fun env => Chronicled.calling i (value env)
  | i, finish comp => finish fun env => ledger.enter i (comp env)

/-- What the record shows is what happens. -/
theorem Block.recorded_shadows (ledger : Ledger b b') (hb : ¬ b.Merges) (i : Nat)
    (block : Block b Env t) (env : Env) :
    Shadows ledger.Twins ((block.recorded ledger hb i).build env) (block.build env) := by
  induction block generalizing i env with
  | bind comp extend rest ih =>
    refine (ledger.enter_shadows i (comp env)).bind fun c d hcd => ?_
    exact ledger.bind_shadows hcd fun u => ih (i + 1) (extend u env)
  | define extend rest ih =>
    exact (Shadows.calling i (extend env)).bind_same fun env' => ih (i + 1) env'
  | yield merges value rest ih => exact (hb merges).elim
  | result value => exact (Shadows.calling i (value env)).map_same ledger.pure_twins
  | finish comp => exact ledger.enter_shadows i (comp env)

end

/-! ## Optional values -/

theorem Builder.not_merges_optional {m : Type → Type} [Monad m] :
    ¬ (Builder.optional m El).Merges := by
  simp [Builder.Merges, Builder.optional]

/-- A record that follows `path` to its end, or breaks off where something is absent. -/
inductive Exits (path : List Mark) : List Mark → (absent : Bool) → Prop where
  | atEnd : Exits path path false
  | early (front : List Mark) {i : Nat} {back : List Mark}
      (hpath : path = front ++ .ran i false :: back) : Exits path (front ++ [.ran i true]) true

theorem Exits.cons {path marks : List Mark} {absent : Bool} (mark : Mark)
    (h : Exits path marks absent) : Exits (mark :: path) (mark :: marks) absent := by
  cases h with
  | atEnd => exact .atEnd
  | early front hpath =>
    subst hpath
    exact .early (mark :: front) rfl

section
variable {ε W : Type}

namespace Optional

/-- The evaluation of an expression that makes an optional value; the record says whether it is
absent. -/
def entered (i : Nat) (act : EStateM ε W (Option (El s))) : Chronicled ε W (Option (El s)) :=
  Chronicled.performing i (fun call o => .ran call (o.any Option.isNone)) act

theorem adds_entered (i : Nat) (act : EStateM ε W (Option (El s))) :
    Adds (entered i act) fun events o => events.map Event.mark = [.ran i o.isNone] :=
  Adds.performing fun _ _ _ => rfl

end Optional

def Ledger.optional :
    Ledger (Builder.optional (EStateM ε W) El) (Builder.optional (Chronicled ε W) El) where
  enter := Optional.entered
  Twins := Eq
  enter_shadows i act := Shadows.performing i _ act
  pure_twins _ := rfl
  bind_shadows {s t c d k k'} h hk := by
    subst h
    cases c with
    | none => exact .pure rfl
    | some u => exact hk u

theorem Block.build_exits (i : Nat) (block : Block (Builder.optional (EStateM ε W) El) Env t)
    (env : Env) :
    Adds ((block.recorded .optional Builder.not_merges_optional i).build env) fun events o =>
      Exits (block.evaluations i) (events.map Event.mark) (Option.isNone o) := by
  induction block generalizing i env with
  | bind comp extend rest ih =>
    refine (Optional.adds_entered i (comp env)).bind fun o events hmark => ?_
    cases o with
    | none =>
      refine Adds.pure ?_
      rw [List.append_nil, hmark]
      exact .early [] rfl
    | some u =>
      refine (ih (i + 1) (extend u env)).mono fun more o hexits => ?_
      rw [List.map_append, hmark]
      exact hexits.cons _
  | define extend rest ih =>
    refine (Adds.called i (extend env)).bind fun env' events hmark => ?_
    refine (ih (i + 1) env').mono fun more o hexits => ?_
    rw [List.map_append, hmark]
    exact hexits.cons _
  | yield merges value rest ih => exact (Builder.not_merges_optional merges).elim
  | result value =>
    refine (Adds.called i (value env)).map fun v events hmark => ?_
    rw [hmark]
    exact .atEnd
  | finish comp =>
    refine (Optional.adds_entered i (comp env)).mono fun events o hmark => ?_
    rw [hmark]
    cases o with
    | none => exact .early [] rfl
    | some u => exact .atEnd

end

/-! ## States -/

theorem Builder.not_merges_state {m : Type → Type} [Monad m] {S : Type} [∀ t, Inhabited (El t)] :
    ¬ (Builder.state m S El).Merges := by
  simp [Builder.Merges, Builder.state]

section
variable {ε W S α : Type}

namespace State

/-- A state transformer whose inside leaves no record: its runs do. -/
def sealed (c : State (EStateM ε W) S α) (i : Nat) : State (Chronicled ε W) S α :=
  ⟨fun s => Chronicled.performing i (fun call _ => .ran call false) (c.run s)⟩

/-- The evaluation of an expression that makes a state transformer. -/
def entered (i : Nat) (act : EStateM ε W (State (EStateM ε W) S α)) :
    Chronicled ε W (State (Chronicled ε W) S α) :=
  (sealed · i) <$> Chronicled.calling i act

/-- From every state, `c` runs as `d` does. -/
def Twins (c : State (Chronicled ε W) S α) (d : State (EStateM ε W) S α) : Prop :=
  ∀ s, Shadows Eq (c.run s) (d.run s)

theorem twins_sealed (c : State (EStateM ε W) S α) (i : Nat) : (c.sealed i).Twins c :=
  fun s => Shadows.performing i (fun call _ => .ran call false) (c.run s)

theorem Twins.entered (i : Nat) (act : EStateM ε W (State (EStateM ε W) S α)) :
    Shadows Twins (State.entered i act) act := by
  refine (Shadows.calling i act).map_left fun c d hcd => ?_
  subst hcd
  exact c.twins_sealed i

theorem Twins.flatMap {β : Type} {c : State (Chronicled ε W) S α} {d : State (EStateM ε W) S α}
    {k : α → Chronicled ε W (State (Chronicled ε W) S β)}
    {k' : α → EStateM ε W (State (EStateM ε W) S β)} (h : c.Twins d)
    (hk : ∀ u, Shadows Twins (k u) (k' u)) : (c.flatMap k).Twins (d.flatMap k') := by
  intro s
  rw [run_flatMap, run_flatMap]
  refine (h s).bind_same fun p => ?_
  exact (hk p.1).bind fun next next' hnext => hnext p.2

theorem Twins.runs {c : State (Chronicled ε W) S α} {d : State (EStateM ε W) S α} (h : c.Twins d)
    (starts : List S) : Shadows Eq (starts.mapM c.run) (starts.mapM d.run) := by
  induction starts with
  | nil => exact .pure rfl
  | cons s starts ih =>
    rw [List.mapM_cons, List.mapM_cons]
    exact (h s).bind_same fun p => ih.bind_same fun ps => .pure rfl

/-- Every run of `c` leaves this record. -/
def Leaves (c : State (Chronicled ε W) S α) (marks : List Mark) : Prop :=
  ∀ s, Adds (c.run s) fun events _ => events.map Event.mark = marks

theorem leaves_sealed (c : State (EStateM ε W) S α) (i : Nat) :
    (c.sealed i).Leaves [.ran i false] := by
  intro s
  show Adds (Chronicled.performing i (fun call _ => .ran call false) (c.run s)) _
  exact Adds.performing fun _ _ _ => rfl

theorem adds_entered (i : Nat) (act : EStateM ε W (State (EStateM ε W) S α)) :
    Adds (entered i act) fun events c =>
      events.map Event.mark = [.called i] ∧ c.Leaves [.ran i false] :=
  (Adds.called i act).map fun d _ hmark => ⟨hmark, d.leaves_sealed i⟩

theorem Leaves.flatMap {β : Type} {c : State (Chronicled ε W) S α}
    {k : α → Chronicled ε W (State (Chronicled ε W) S β)} {marks between behind : List Mark}
    (h : c.Leaves marks) (hk : ∀ u, Adds (k u) fun events next =>
      events.map Event.mark = between ∧ next.Leaves behind) :
    (c.flatMap k).Leaves (marks ++ (between ++ behind)) := by
  intro s
  rw [run_flatMap]
  refine (h s).bind fun p events hmarks => ?_
  refine (hk p.1).bind fun next more ⟨hbetween, hnext⟩ => ?_
  refine (hnext p.2).mono fun rest _ hbehind => ?_
  simp only [List.map_append, hmarks, hbetween, hbehind]

/-- Runs one after the other leave their records one behind the other. -/
theorem Leaves.runs {c : State (Chronicled ε W) S α} {marks : List Mark} (h : c.Leaves marks)
    (starts : List S) : Adds (starts.mapM c.run) fun events _ =>
      events.map Event.mark = (List.replicate starts.length marks).flatten := by
  induction starts with
  | nil => exact .pure rfl
  | cons s starts ih =>
    rw [List.mapM_cons]
    refine (h s).bind fun p events hmarks => ih.bind fun ps more hrest => .pure ?_
    simp [hmarks, hrest, List.replicate_succ]

end State

variable [∀ t, Inhabited (El t)]

def Ledger.state :
    Ledger (Builder.state (EStateM ε W) S El) (Builder.state (Chronicled ε W) S El) where
  enter := State.entered
  Twins := State.Twins
  enter_shadows := State.Twins.entered
  pure_twins _ _ := .pure rfl
  bind_shadows h hk := .pure (h.flatMap hk)

theorem Block.build_opens (i : Nat) (block : Block (Builder.state (EStateM ε W) S El) Env t)
    (env : Env) :
    Adds ((block.recorded .state Builder.not_merges_state i).build env) fun events c =>
      events.map Event.mark = block.opening i ∧ State.Leaves c (block.following i) := by
  induction block generalizing i env with
  | bind comp extend rest ih =>
    refine (State.adds_entered i (comp env)).bind fun c events ⟨hmark, hleaves⟩ => .pure ⟨?_, ?_⟩
    · rw [List.append_nil]
      exact hmark
    · exact hleaves.flatMap fun u => ih (i + 1) (extend u env)
  | define extend rest ih =>
    refine (Adds.called i (extend env)).bind fun env' events hmark => ?_
    refine (ih (i + 1) env').mono fun more c ⟨hopening, hleaves⟩ => ⟨?_, hleaves⟩
    rw [List.map_append, hmark, hopening]
    rfl
  | yield merges value rest ih => exact (Builder.not_merges_state merges).elim
  | result value =>
    exact (Adds.called i (value env)).map fun v events hmark => ⟨hmark, fun s => .pure rfl⟩
  | finish comp => exact State.adds_entered i (comp env)

end

end Workflow
