import Workflow.Chain
import Workflow.Proofs.Direct.Evaluations
import Workflow.Proofs.Nesting.WrittenOut

/-!
# Chains in direct style

Whoever goes on without continuations performs the computation that a chain hangs on, hands its
element to the first continuation, performs what that answers, and so on (`Chain.direct`). A chain
can be nested to the left or to the right, and continuations over one type can be recorded by a
sequencer; where a `Performance` is given, it cannot tell these apart.

`Chain.recorded` is a chain in the host that keeps a record, with its continuations numbered.
-/

namespace Workflow

variable {m n : Type → Type} {ι : Type} {El : ι → Type} {b : Builder m El} {s t : ι}

namespace Chain

/-- Calls every continuation on the element that is there, and performs what it answers. -/
def direct [Monad n] [MonadLiftT m n] (p : Performance b n) {s t : ι} :
    Chain b s t → El s → n (El t)
  | nil, u => return u
  | cons k rest, u => do rest.direct p (← p.performed (k u))

/-- The continuations of the first chain, then those of the second. -/
def append {r s t : ι} : Chain b r s → Chain b s t → Chain b r t
  | nil, back => back
  | cons k front, back => cons k (front.append back)

/-- Continuations over one element type. -/
def ofList (ks : List (El t → m (b.Comp t))) : Chain b t t := ks.foldr cons nil

end Chain

namespace Performance

variable [Monad m] [Monad n] [LawfulMonad n] [MonadLiftT m n] [LawfulMonadLiftT m n]
  (p : Performance b n)

theorem performed_nestLeft (chain : Chain b s t) (c : b.Comp s) :
    p.performed (chain.nestLeft c) = p.perform c >>= chain.direct p := by
  induction chain with
  | nil => exact (p.performed_pure c).trans (bind_pure _).symm
  | cons k rest ih =>
    calc p.performed (b.bind c k >>= fun c' => rest.nestLeft c')
      _ = (liftM (b.bind c k) : n (b.Comp _)) >>= fun c' => p.perform c' >>= rest.direct p := by
        rw [performed_after]
        exact bind_congr ih
      _ = p.performed (b.bind c k) >>= rest.direct p := (bind_assoc _ _ _).symm
      _ = p.perform c >>= fun u => p.performed (k u) >>= rest.direct p := by
        rw [performed_bind, bind_assoc]

theorem performed_nestRight (chain : Chain b s t) (c : b.Comp s) :
    p.performed (chain.nestRight c) = p.perform c >>= chain.direct p := by
  induction chain with
  | nil => exact (p.performed_pure c).trans (bind_pure _).symm
  | cons k rest ih =>
    rw [Chain.nestRight, performed_bind]
    refine bind_congr fun u => ?_
    calc p.performed (k u >>= fun c' => rest.nestRight c')
      _ = (liftM (k u) : n (b.Comp _)) >>= fun c' => p.perform c' >>= rest.direct p := by
        rw [performed_after]
        exact bind_congr ih
      _ = p.performed (k u) >>= rest.direct p := (bind_assoc _ _ _).symm

/-- What follows the start of a sequencer of bind steps. -/
theorem performed_continuation [LawfulMonad m] (ks : List (El t → m (b.Comp t)))
    (finish : El t → m (El t)) (u : El t) :
    p.performed ((Sequencer.ofBinds ks).continuation finish u) =
      (Chain.ofList ks).direct p u >>= fun v => (liftM (finish v) : n (El t)) := by
  rw [Sequencer.continuation, Sequencer.steps_ofBinds, List.foldr_map]
  induction ks generalizing u with
  | nil =>
    have hnil : (Chain.ofList []).direct p u = pure u := rfl
    rw [hnil, pure_bind]
    exact p.performed_map_pure (finish u)
  | cons k ks ih =>
    refine (p.performed_after_bind (k u) _).trans ?_
    refine (bind_congr ih).trans ?_
    exact (bind_assoc _ _ _).symm

/-- A sequencer that finishes with the value that it has is a chain. -/
theorem performed_bind_continuation [LawfulMonad m] (ks : List (El t → m (b.Comp t)))
    (c : b.Comp t) :
    p.performed (b.bind c ((Sequencer.ofBinds ks).continuation pure)) =
      p.performed ((Chain.ofList ks).nestRight c) := by
  rw [performed_bind, performed_nestRight]
  refine bind_congr fun u => ?_
  rw [performed_continuation]
  simp only [liftM_pure, bind_pure]

end Performance

/-! ## Chains with a record -/

section
variable {ε W : Type} {b : Builder (EStateM ε W) El} {b' : Builder (Chronicled ε W) El}

/-- Continuations over one type with a record, numbered from `i` on. -/
def Ledger.numbered (ledger : Ledger b b') :
    (i : Nat) → List (El t → EStateM ε W (b.Comp t)) → List (El t → Chronicled ε W (b'.Comp t))
  | _, [] => []
  | i, k :: ks => (fun u => ledger.enter i (k u)) :: ledger.numbered (i + 1) ks

namespace Chain

/-- The same chain with a record of its calls, numbered from `i` on. -/
def recorded (ledger : Ledger b b') {s t : ι} : (i : Nat) → Chain b s t → Chain b' s t
  | _, nil => nil
  | i, cons k rest => cons (fun u => ledger.enter i (k u)) (rest.recorded ledger (i + 1))

theorem recorded_ofList (ledger : Ledger b b') (i : Nat)
    (ks : List (El t → EStateM ε W (b.Comp t))) :
    (ofList ks).recorded ledger i = ofList (ledger.numbered i ks) := by
  induction ks generalizing i with
  | nil => rfl
  | cons k ks ih => exact congrArg (cons _) (ih (i + 1))

end Chain

theorem Ledger.length_numbered (ledger : Ledger b b') (i : Nat)
    (ks : List (El t → EStateM ε W (b.Comp t))) : (ledger.numbered i ks).length = ks.length := by
  induction ks generalizing i with
  | nil => rfl
  | cons k ks ih => exact congrArg (· + 1) (ih (i + 1))

end

end Workflow
