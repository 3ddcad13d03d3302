import Workflow.Builder

/-!
# Chains: two ways to nest the same continuations

A chain is a list of continuations that fit together: each takes the element that the one before it
computes. It can be hung on a computation in two ways. Nested to the left, `bind (bind c k₁) k₂`,
the binds are made one after the other from the outside; nested to the right,
`bind c (fun u => bind (k₁ u) k₂)`, each bind is made inside the continuation of the one before.
-/

namespace Workflow

variable {m : Type → Type} [Monad m] {ι : Type} {El : ι → Type}

/-- Continuations that lead from an element of type `s` to a computation of type `t`. -/
inductive Chain (b : Builder m El) : ι → ι → Type where
  | nil {t : ι} : Chain b t t
  | cons {s u t : ι} (k : El s → m (b.Comp u)) (rest : Chain b u t) : Chain b s t

namespace Chain

variable {b : Builder m El} {s t : ι}

/-- The number of continuations. -/
def length {s t : ι} : Chain b s t → Nat
  | nil => 0
  | cons _ rest => rest.length + 1

/-- The same continuation `n` times over. -/
def replicate (n : Nat) (k : El t → m (b.Comp t)) : Chain b t t :=
  match n with
  | 0 => nil
  | n + 1 => cons k (replicate n k)

/-- `bind (… bind (bind c k₁) k₂ …) kₙ`. -/
def nestLeft {s t : ι} (c : b.Comp s) : Chain b s t → m (b.Comp t)
  | nil => return c
  | cons k rest => do rest.nestLeft (← b.bind c k)

/-- `bind c (fun u => bind (k₁ u) (fun v => bind (k₂ v) …))`. -/
def nestRight {s t : ι} (c : b.Comp s) : Chain b s t → m (b.Comp t)
  | nil => return c
  | cons k rest => b.bind c fun u => do rest.nestRight (← k u)

end Chain

end Workflow
