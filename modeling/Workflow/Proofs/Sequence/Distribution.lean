import Mathlib.Data.List.Perm.Basic
import Workflow.Proofs.Sequence.CallOrder

/-!
# A bind of merged sequences is two binds

Sequences merge by standing one behind the other, which makes them a monoid with the empty sequence
(`Builder.MergesAsMonoid`). A bind respects it: merged sequences are bound one after the other, by
the same closure (`Builder.BindsInTurn`).

This is so for every closure, and not only if its calls are independent of each other. A closure
may carry state from one call to the next, which is to say that its host carries the state; it goes
on with the second sequence in the state in which the first one left it. It may also panic: then the
calls that are heard end with the one that did (`CalledInTurn`), and if that was for the first
sequence, the second is not looked at (`CarriesOn`).

Where a closure merges what two closures make, the elements of the two come in turns, so that the
bind is no more than a permutation of the two binds.
-/

namespace Workflow

/-! ## Laws of merging -/

section
variable {m : Type → Type} [Monad m] {ι : Type} {El : ι → Type}

/-- Merging always succeeds, and is a monoid with `zero`. -/
structure Builder.MergesAsMonoid [Reports m] (b : Builder m El) (h : b.Merges) : Prop where
  combine {t : ι} (first second : b.Comp t) :
    b.combine first second = return .ok (b.merge h first second)
  assoc {t : ι} (first second third : b.Comp t) :
    b.merge h (b.merge h first second) third = b.merge h first (b.merge h second third)
  zero_merge {t : ι} (c : b.Comp t) : b.merge h b.zero c = c
  merge_zero {t : ι} (c : b.Comp t) : b.merge h c b.zero = c

/-- Merged computations are bound in turn, to the same continuation. -/
structure Builder.BindsInTurn (b : Builder m El) (h : b.Merges) : Prop where
  bind_merge {s t : ι} (first second : b.Comp s) (f : El s → m (b.Comp t)) :
    b.bind (b.merge h first second) f = do
      let front ← b.bind first f
      let back ← b.bind second f
      return b.merge h front back
  bind_zero {s t : ι} (f : El s → m (b.Comp t)) : b.bind b.zero f = return b.zero

theorem Builder.sequence_mergesAsMonoid [Reports m] :
    (Builder.sequence m El).MergesAsMonoid (Builder.sequence_merges m El) where
  combine _ _ := rfl
  assoc a b c := congrArg Sequence.mk (List.append_assoc a.elements b.elements c.elements)
  zero_merge _ := rfl
  merge_zero c := congrArg Sequence.mk (List.append_nil c.elements)

theorem Builder.sequence_bindsInTurn [LawfulMonad m] :
    (Builder.sequence m El).BindsInTurn (Builder.sequence_merges m El) where
  bind_merge := Sequence.flatMap_append
  bind_zero := Sequence.flatMap_empty

end

/-! ## Closures that count their calls -/

namespace Sequence

variable {m : Type → Type} [Monad m] [LawfulMonad m] {α β : Type}

/-- The counter numbers the elements, and has counted them all in the end. -/
theorem run_flatMap_counting (f : Nat → α → m (Sequence β)) (as : List α) (n : Nat) :
    (flatMap ⟨as⟩ fun a => (do
      let calls ← modifyGet fun n => (n, n + 1)
      StateT.lift (f calls a) : StateT Nat m (Sequence β))).run n =
      (fun r => (r, n + as.length)) <$> flatMap ⟨as.zipIdx n⟩ fun p => f p.2 p.1 := by
  -- the start is general, since the calls for the rest start one later
  induction as generalizing n with
  | nil => simp [flatMap]
  | cons a as ih =>
    rw [flatMap_cons, List.zipIdx_cons, flatMap_cons]
    simp [ih, Nat.add_assoc, Nat.add_comm 1]

theorem flatMapCounted_eq (s : Sequence α) (f : Nat → α → m (Sequence β)) :
    s.flatMapCounted f = flatMap ⟨s.elements.zipIdx⟩ fun p => f p.2 p.1 := by
  refine (congrArg (Prod.fst <$> ·) (run_flatMap_counting f s.elements 0)).trans ?_
  simp

/-- Numbers that start later are the numbers from the start, shifted. -/
theorem flatMap_zipIdx_add (f : Nat → α → m (Sequence β)) (as : List α) (k n : Nat) :
    (flatMap ⟨as.zipIdx (k + n)⟩ fun p => f p.2 p.1) =
      flatMap ⟨as.zipIdx n⟩ fun p => f (k + p.2) p.1 := by
  induction as generalizing n with
  | nil => rfl
  | cons a as ih =>
    rw [List.zipIdx_cons, List.zipIdx_cons, flatMap_cons, flatMap_cons, ← ih]
    rfl

/-- The calls for the second sequence are counted on from those for the first. -/
theorem flatMapCounted_append (a b : Sequence α) (f : Nat → α → m (Sequence β)) :
    (a.append b).flatMapCounted f = do
      let front ← a.flatMapCounted f
      let back ← b.flatMapCounted fun calls => f (a.length + calls)
      return front.append back := by
  have hnumbers : (⟨(a.append b).elements.zipIdx⟩ : Sequence (α × Nat)) =
      append ⟨a.elements.zipIdx⟩ ⟨b.elements.zipIdx (a.length + 0)⟩ := by
    simp [append, length, List.zipIdx_append]
  rw [flatMapCounted_eq, flatMapCounted_eq, flatMapCounted_eq, hnumbers, flatMap_append,
    flatMap_zipIdx_add]

end Sequence

/-! ## Closures with state, that may panic -/

section
variable {ε W σ α β γ τ : Type}

/-- A closure that carries state from call to call, with its calls heard. -/
def listening (f : α → StateT σ (EStateM ε W) β) : α → StateT σ (EStateM ε (Heard α W)) β :=
  fun a state => hearing a (f a state)

/-- What comes of calls that are made on the elements one after the other, and what is heard. -/
inductive CalledInTurn (elements before : List α) : EStateM.Result ε (Heard α W) τ → Prop where
  /-- No call panics. -/
  | returned {x : τ} {w : W} {calls : List α} (hcalls : calls = before ++ elements) :
    CalledInTurn elements before (.ok x ⟨w, calls⟩)
  /-- A call panics, and is the last one. -/
  | stopped {front back : List α} {a : α} {e : ε} {w : W} {calls : List α}
    (helements : elements = front ++ a :: back) (hcalls : calls = before ++ (front ++ [a])) :
    CalledInTurn elements before (.error e ⟨w, calls⟩)

/-- A call in front of others. -/
theorem CalledInTurn.cons {as before : List α} {a : α} {x : EStateM ε (Heard α W) τ}
    {h : Heard α W} (hx : CalledInTurn as (before ++ [a]) (x h)) (φ : τ → γ) :
    CalledInTurn (a :: as) before ((φ <$> x) h) := by
  rw [map_eq_pure_bind]
  generalize hresult : x h = result at hx
  cases hx with
  | returned hcalls =>
    rw [bind_of_ok hresult]
    exact .returned (by rw [hcalls, List.append_assoc, List.singleton_append])
  | @stopped front back last _ _ _ has hcalls =>
    have hcons : a :: as = (a :: front) ++ last :: back := congrArg (a :: ·) has
    rw [bind_of_error hresult]
    refine .stopped hcons ?_
    rw [hcalls, List.append_assoc, List.singleton_append, List.cons_append]

theorem calledInTurn_flatMap (f : α → StateT σ (EStateM ε W) (Sequence β)) (c : Sequence α)
    (state : σ) (w : W) (before : List α) :
    CalledInTurn c.elements before (c.flatMap (listening f) state ⟨w, before⟩) := by
  obtain ⟨as⟩ := c
  induction as generalizing state w before with
  | nil => exact .returned (List.append_nil before).symm
  | cons a as ih =>
    rw [Sequence.flatMap_cons]
    -- the calls for the rest start in the state that the first one leaves, with it in the record
    change CalledInTurn (a :: as) before ((hearing a (f a state) >>= fun front =>
      (fun back => (front.1.append back.1, back.2)) <$>
        Sequence.flatMap ⟨as⟩ (listening f) front.2) ⟨w, before⟩)
    cases hcall : f a state w with
    | ok front w' =>
      rw [bind_of_ok (hearing_of_ok hcall a before)]
      exact (ih front.2 w' (before ++ [a])).cons _
    | error e w' =>
      rw [bind_of_error (hearing_of_error hcall a before)]
      exact .stopped (List.nil_append (a :: as)).symm rfl

end

section
variable {ε W σ : Type} {ι : Type} {El : ι → Type} {s t : ι}

/-- A bind whose closure carries state, with its calls heard. -/
def heardBind (c : Sequence (El s)) (f : El s → StateT σ (EStateM ε W) (Sequence (El t))) :
    StateT σ (EStateM ε (Heard (El s) W)) (Sequence (El t)) :=
  (Builder.sequence _ El).bind c (listening f)

/-- What is heard when `a` and `b` are merged and bound. -/
structure CarriesOn (a b : Sequence (El s)) (f : El s → StateT σ (EStateM ε W) (Sequence (El t))) :
    Prop where
  /-- The calls are those for the elements in order, up to the first that panics. -/
  inTurn (state : σ) (w : W) (before : List (El s)) :
    CalledInTurn (a.append b).elements before (heardBind (a.append b) f state ⟨w, before⟩)
  /-- If a call for `a` panics, nothing is seen of `b`. -/
  stopped {state : σ} {h h' : Heard (El s) W} {e : ε} (ha : heardBind a f state h = .error e h') :
    heardBind (a.append b) f state h = .error e h'
  /-- If none does, the closure goes on with `b` in the state that it has come to. -/
  onward {state state' : σ} {h h' : Heard (El s) W} {front : Sequence (El t)}
    (ha : heardBind a f state h = .ok (front, state') h') :
    heardBind (a.append b) f state h =
      ((fun back => (front.append back.1, back.2)) <$> heardBind b f state') h'

theorem carriesOn (a b : Sequence (El s)) (f : El s → StateT σ (EStateM ε W) (Sequence (El t))) :
    CarriesOn a b f := by
  -- hearing the calls is one more thing that the closure does, and distribution holds for all
  have hmerged (state : σ) : heardBind (a.append b) f state =
      heardBind a f state >>= fun front =>
        (fun back => (front.1.append back.1, back.2)) <$> heardBind b f front.2 :=
    congrFun (Sequence.flatMap_append a b (listening f)) state
  constructor
  case inTurn => exact calledInTurn_flatMap f (a.append b)
  case stopped =>
    intro state h h' e ha
    rw [hmerged, bind_of_error ha]
  case onward =>
    intro state state' h h' front ha
    rw [hmerged, bind_of_ok ha]

end

/-! ## All together -/

section
variable (m : Type → Type) [Monad m] {ι : Type} (El : ι → Type)

/-- What holds of merged sequences and of binding them. -/
structure MergingLaws [Reports m] : Prop where
  /-- Merging puts one sequence behind the other. -/
  merge_eq {t : ι} (a b : Sequence (El t)) :
    (Builder.sequence m El).merge (Builder.sequence_merges m El) a b = a.append b
  monoid : (Builder.sequence m El).MergesAsMonoid (Builder.sequence_merges m El)
  /-- A value in front of a sequence is its first element. -/
  prepend {t : ι} (v : El t) (rest : Sequence (El t)) :
    (Builder.sequence m El).prepend (Builder.sequence_merges m El) v rest = ⟨v :: rest.elements⟩
  /-- Whatever a closure does, merged sequences are bound one after the other. -/
  inTurn : (Builder.sequence m El).BindsInTurn (Builder.sequence_merges m El)
  /-- So they are if the closure carries state from call to call. -/
  carryingState (σ : Type) :
    (Builder.sequence (StateT σ m) El).BindsInTurn (Builder.sequence_merges _ El)
  /-- If it counts its calls, those for the second sequence are counted on. -/
  counted {s t : ι} (a b : Sequence (El s)) (f : Nat → El s → m (Sequence (El t))) :
    (a.append b).flatMapCounted f = do
      let front ← a.flatMapCounted f
      let back ← b.flatMapCounted fun calls => f (a.length + calls)
      return front.append back
  /-- If it panics, the calls that are heard are the same, up to the one that did. -/
  carriesOn {ε W σ : Type} {s t : ι} (a b : Sequence (El s))
    (f : El s → StateT σ (EStateM ε W) (Sequence (El t))) : CarriesOn a b f
  /-- A bind to what two closures without effects make, side by side, has the elements of two binds,
  in another order. -/
  rearranged {s t : ι} (c : Sequence (El s)) (F G : El s → Sequence (El t)) :
    ∃ both front back : Sequence (El t),
      (Builder.sequence m El).bind c (fun u => pure ((F u).append (G u))) = pure both ∧
      (Builder.sequence m El).bind c (fun u => pure (F u)) = pure front ∧
      (Builder.sequence m El).bind c (fun u => pure (G u)) = pure back ∧
      both.elements.Perm (front.append back).elements

/-- **Binds distribute over merging.** Sequences are a monoid under merging, which never refuses,
and a bind of merged sequences is the bind of the first and then of the second, with the same
closure, also if that carries state, counts, or panics. A bind to merged results is a permutation of
the two binds. -/
theorem Sequence.merging_laws [LawfulMonad m] [Reports m] : MergingLaws m El := by
  constructor
  case merge_eq => exact fun _ _ => rfl
  case monoid => exact Builder.sequence_mergesAsMonoid
  case prepend => exact fun _ _ => rfl
  case inTurn => exact Builder.sequence_bindsInTurn
  case carryingState => exact fun σ => Builder.sequence_bindsInTurn
  case counted => exact flatMapCounted_append
  case carriesOn => exact Workflow.carriesOn
  case rearranged =>
    intro s t c F G
    refine ⟨_, _, _, flatMap_of_pure _ c, flatMap_of_pure F c, flatMap_of_pure G c, ?_⟩
    exact (List.flatMap_append_perm c.elements _ _).symm

end

section
open Script

/-- The number, and how many were tallied before. Gives up on three. -/
def tally (u : Int64) : StateT Nat Act (Sequence Int64) := fun before => do
  Act.record (.remark "tally")
  if u = 3 then throw .divisionByZero else return (⟨[u, Int64.ofNat before]⟩, before + 1)

/-- The tally of numbers, with its calls heard. -/
def tallies (us : Sequence (Script.El .int)) :
    StateT Nat (EStateM Fault (Heard (Script.El .int) Session)) (Sequence (Script.El .int)) :=
  heardBind us tally

/-- Two is tallied behind one, but not behind three. Numbers and their tenfolds come in turns if
they are merged inside of the bind. -/
theorem tallies_merged :
    (∃ w, tallies (.append ⟨[1]⟩ ⟨[2]⟩) 0 ⟨Session.fresh, []⟩ =
      .ok (⟨[1, 0, 2, 1]⟩, 2) ⟨w, [1, 2]⟩) ∧
    (∃ w, tallies (.append ⟨[3]⟩ ⟨[2]⟩) 0 ⟨Session.fresh, []⟩ =
      .error .divisionByZero ⟨w, [3]⟩) ∧
    ∃ both front back : Sequence Int64,
      (Builder.sequence Act Script.El).bind (s := .int) (t := .int) ⟨[1, 2]⟩
        (fun u : Int64 => pure (.append ⟨[u]⟩ ⟨[10 * u]⟩)) = pure both ∧
      (Builder.sequence Act Script.El).bind (s := .int) (t := .int) ⟨[1, 2]⟩
        (fun u : Int64 => pure ⟨[u]⟩) = pure front ∧
      (Builder.sequence Act Script.El).bind (s := .int) (t := .int) ⟨[1, 2]⟩
        (fun u : Int64 => pure ⟨[10 * u]⟩) = pure back ∧
      both = ⟨[1, 10, 2, 20]⟩ ∧ front.append back = ⟨[1, 2, 10, 20]⟩ ∧
      both.elements.Perm (front.append back).elements := by
  have hlaws := Sequence.merging_laws Act Script.El
  have hone : ∃ w, tallies ⟨[1]⟩ 0 ⟨Session.fresh, []⟩ = .ok (⟨[1, 0]⟩, 1) ⟨w, [1]⟩ := ⟨_, rfl⟩
  have hthree : ∃ w, tallies ⟨[3]⟩ 0 ⟨Session.fresh, []⟩ = .error .divisionByZero ⟨w, [3]⟩ :=
    ⟨_, rfl⟩
  obtain ⟨w₁, hone⟩ := hone
  obtain ⟨w₃, hthree⟩ := hthree
  have honward := (hlaws.carriesOn (s := Ty.int) (t := Ty.int) ⟨[1]⟩ ⟨[2]⟩ tally).onward hone
  have hstopped := (hlaws.carriesOn (s := Ty.int) (t := Ty.int) ⟨[3]⟩ ⟨[2]⟩ tally).stopped hthree
  obtain ⟨both, front, back, hboth, hfront, hback, hperm⟩ := hlaws.rearranged (s := Ty.int)
    (t := Ty.int) ⟨[1, 2]⟩ (fun u : Int64 => ⟨[u]⟩) fun u => ⟨[10 * u]⟩
  refine ⟨⟨_, honward⟩, ⟨_, hstopped⟩, both, front, back, hboth, hfront, hback, ?_, ?_, hperm⟩
  · cases congrFun hboth Session.fresh
    rfl
  · cases congrFun hfront Session.fresh
    cases congrFun hback Session.fresh
    rfl

end

end Workflow
