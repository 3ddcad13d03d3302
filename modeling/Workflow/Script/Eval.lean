import Workflow.Block
import Workflow.Chain
import Workflow.Script.Prim
import Workflow.Sequencer

/-!
# Evaluation: what programs do

`Expr.eval` evaluates an expression, `Plan.build` makes the computation that a plan describes; both
are acts in a session, under an environment that says what names stand for. The closures that a plan
hands to the library evaluate and build under the environment of the place where they stand,
extended by the name of their argument: the innermost binding of a name wins.

The functions recur on the program, so evaluation ends.
-/

namespace Workflow.Script

/-- A computation that was made once, to be used often. -/
structure Shared where
  kind : Kind
  type : Ty
  comp : Comp kind type

/-- What names stand for, the innermost binding first. -/
structure Env where
  vars : List (String × Datum)
  shared : List (String × Shared)

namespace Env

/-- No names. -/
def empty : Env := ⟨[], []⟩

/-- The environment with one more variable. -/
def define (env : Env) (x : String) (v : Datum) : Env := { env with vars := (x, v) :: env.vars }

/-- The environment in which `x` stands for an element. -/
def bind {t : Ty} (env : Env) (x : String) (u : El t) : Env := env.define x (.ofEl u)

/-- The environment with one more shared computation. -/
def share {k : Kind} {t : Ty} (env : Env) (x : String) (c : Comp k t) : Env :=
  { env with shared := (x, ⟨k, t, c⟩) :: env.shared }

/-- The value of a variable. -/
def find (env : Env) (x : String) : Act Datum := Act.ofOption (env.vars.lookup x)

/-- The innermost binding of a name wins. -/
theorem find_define (env : Env) (x y : String) (v : Datum) :
    (env.define x v).find y = if y = x then return v else env.find y := by
  by_cases h : y = x
  · subst h
    rw [if_pos rfl, find, define, List.lookup_cons_self]
    rfl
  · have hne : (y == x) = false := beq_false_of_ne h
    rw [if_neg h, find, define, List.lookup_cons, hne]
    rfl

/-- The shared computation of a given kind and element type. -/
def use (env : Env) (k : Kind) (t : Ty) (x : String) : Act (Comp k t) :=
  match env.shared.lookup x with
  | some ⟨k', t', c⟩ =>
    if h : k' = k ∧ t' = t then return h.1 ▸ h.2 ▸ c else throw .senseless
  | none => throw .senseless

end Env

/-- Names the parts of an element. -/
def Pattern.extend : {t : Ty} → Pattern t → El t → Env → Env
  | _, .name x, u, env => env.bind x u
  | _, .wildcard, _, env => env
  | _, .pair x y, (a, b), env => (env.define x (.int a)).define y (.int b)

namespace Datum

/-- The datum as an element of type `t`. -/
def toEl (t : Ty) (v : Datum) : Act (El t) := Act.ofOption (v.toEl? t)

/-- The elements of type `t` that data stand for. -/
def toEls (t : Ty) (vs : List Datum) : Act (List (El t)) := vs.mapM (toEl t)

/-- The data in a list. -/
def items : Datum → Act (List Datum)
  | list vs => return vs
  | _ => throw .senseless

end Datum

/-- Takes a combination, or gives up on a refusal. -/
def accept {α : Type} : Except Refusal α → Act α
  | .ok c => return c
  | .error r => throw (.refused r)

/-- The integers from `a` on, below `b`. -/
def interval (a b : Int64) : List Int64 :=
  (List.range (b.toInt - a.toInt).toNat).map fun i => a + Int64.ofNat i

/-- Asks a signal `n` times; the last answer, or `false` if there was none. -/
def pollTimes (signal : Signal Act) : Nat → Act Bool
  | 0 => return false
  | 1 => signal.poll
  | n + 1 => do
    let _ ← signal.poll
    pollTimes signal n

mutual

/-- The value of an expression. -/
def Expr.eval : Expr → Env → Act Datum
  | .lit v, _ => return v
  | .var x, env => env.find x
  | .app op args, env => do Act.ofExcept (op.apply (← Expr.evalAll args env))
  | .cond test yes no, env => do
    if ← (← test.eval env).toEl .bool then yes.eval env else no.eval env
  | .and a b, env => do
    if ← (← a.eval env).toEl .bool then b.eval env else return .bool false
  | .or a b, env => do
    if ← (← a.eval env).toEl .bool then return .bool true else b.eval env
  | .orElse option other, env => do
    match ← option.eval env with
    | .present v => return v
    | .absent => other.eval env
    | _ => throw .senseless
  | .log label e, env => do
    let v ← e.eval env
    Act.record (.note label v)
    return v
  | .remark word e, env => do
    Act.record (.remark word)
    e.eval env
  | .tick counter, _ => .int <$> Act.tick counter
  | .cancel signal e, env => do
    Act.cancel signal
    e.eval env
  | .poll signal, _ => .bool <$> Act.poll signal
  | .panic text, _ => throw (.panicked text)
  | .runOptional c, env => do
    let o : Option (El _) ← c.build env
    return match o with
      | some u => .present (.ofEl u)
      | none => .absent
  | .runSequence c, env => do
    let s : Sequence (El _) ← c.build env
    return .list (s.elements.map .ofEl)
  | .evalState c initial, env => do
    let c : State Act Int64 (El _) ← c.build env
    let s ← (← initial.eval env).toEl .int
    return .ofEl (← c.eval s)
  | .execState c initial, env => do
    let c : State Act Int64 (El _) ← c.build env
    let s ← (← initial.eval env).toEl .int
    return .int (← c.exec s)
  | .runCancellable c signal, env => do
    let c : Cancellable Act (El _) ← c.build env
    return .ofEl (← c.run (Act.watch signal)).value
  | .wasCancelled c signal, env => do
    let c : Cancellable Act (El _) ← c.build env
    return .bool (← c.run (Act.watch signal)).cancelled

/-- The values of expressions, from left to right. -/
def Expr.evalAll : List Expr → Env → Act (List Datum)
  | [], _ => return []
  | e :: es, env => do
    let v ← e.eval env
    return v :: (← Expr.evalAll es env)

/-- The computation that a plan describes. -/
def Plan.build : {k : Kind} → {t : Ty} → Plan k t → Env → Act (Comp k t)
  | k, t, .pure e, env => do return (builder k).pure (← (← e.eval env).toEl t)
  | k, _, .zero, _ => return (builder k).zero
  | k, _, .bind c x next, env => do
    (builder k).bind (← c.build env) fun u => next.build (env.bind x u)
  | k, t, .map c x value, env => do
    (builder k).map (← c.build env) fun u => do (← value.eval (env.bind x u)).toEl t
  | k, _, .andThen first second, env => do
    let c ← first.build env
    (builder k).andThen c (← second.build env)
  | k, _, .combine first second, env => do
    let c ← first.build env
    accept (← (builder k).combine c (← second.build env))
  | k, _, .combineOr first second other, env => do
    let c ← first.build env
    match ← (builder k).combine c (← second.build env) with
    | .ok c => return c
    | .error _ => other.build env
  | k, _, .run body, env => (builder k).run fun _ => body.build env
  | _, _, .choose e yes no, env => do
    if ← (← e.eval env).toEl .bool then yes.build env else no.build env
  | _, _, .define x e body, env => do body.build (env.define x (← e.eval env))
  | _, _, .share x c body, env => do body.build (env.share x (← c.build env))
  | k, t, .use x, env => env.use k t x
  | k, _, .chainLeft n c x next, env => do
    let chain : Chain (builder k) _ _ := .replicate n fun u => next.build (env.bind x u)
    chain.nestLeft (← c.build env)
  | k, _, .chainRight n c x next, env => do
    let chain : Chain (builder k) _ _ := .replicate n fun u => next.build (env.bind x u)
    chain.nestRight (← c.build env)
  | _, _, .block body, env => body.toBlock.build env
  | k, t, .sequencer steps start x finish, env => do
    let recorded : Sequencer (builder k) t := ⟨steps.toList env⟩
    recorded.build (← start.build env) fun u => do (← finish.eval (env.bind x u)).toEl t
  | _, t, .quotient a b, env => do
    let a ← (← a.eval env).toEl .int
    let b ← (← b.eval env).toEl .int
    match checkedDiv a b with
    | .ok n => return some (← (Datum.int n).toEl t)
    | .error _ => return none
  | _, t, .whenever test value, env => do
    if ← (← test.eval env).toEl .bool then return some (← (← value.eval env).toEl t)
    else return none
  | _, _, .append first second, env => do
    let c ← first.build env
    return (builder .sequence).merge (Builder.sequence_merges Act El) c (← second.build env)
  | _, t, .yield e rest, env => do
    let u ← (← e.eval env).toEl t
    return (builder .sequence).prepend (Builder.sequence_merges Act El) u (← rest.build env)
  | _, t, .items es, env => do return ⟨← Datum.toEls t (← Expr.evalAll es env)⟩
  | _, t, .elements e, env => do return ⟨← Datum.toEls t (← (← e.eval env).items)⟩
  | _, t, .range a b, env => do
    let a ← (← a.eval env).toEl .int
    let b ← (← b.eval env).toEl .int
    return ⟨← Datum.toEls t ((interval a b).map .int)⟩
  | _, _, .flatMap c x next, env => do
    let s : Sequence (El _) ← c.build env
    s.flatMapCounted fun i u =>
      next.build ((env.bind x u).define "i" (.int (Int64.ofNat i)))
  | _, _, .get, _ => return State.get
  | .state s, _, .put e, env => do return State.put (← (← e.eval env).toEl s)
  | .state s, _, .modify x value, env =>
    return State.modify fun u => do (← value.eval (env.bind x u)).toEl s
  | .state s, t, .gets x value, env =>
    return State.gets fun (u : El s) => do (← value.eval (env.bind x u)).toEl t
  | .state s, t, .transform x value next, env =>
    return (⟨fun (u : El s) => do
      let v ← (← value.eval (env.bind x u)).toEl t
      return (v, ← (← next.eval (env.bind x u)).toEl s)⟩ : State Act (El s) (El t))
  | .state s, t, .mapState c x value, env => do
    let c : State Act (El s) (El _) ← c.build env
    return State.map c fun u => do (← value.eval (env.bind x u)).toEl t
  | .state s, _, .thenState first second, env => do
    let c : State Act (El s) (El _) ← first.build env
    return State.andThen c (← second.build env)
  | _, t, .delay value, env =>
    return Cancellable.delay do (← value.eval env).toEl t
  | _, t, .probe polls value cancelled, env =>
    return (⟨fun signal => do
      let env := env.define "p" (.bool (← pollTimes signal polls))
      let u ← (← value.eval env).toEl t
      return ⟨u, ← (← cancelled.eval env).toEl .bool⟩⟩ : Cancellable Act (El t))

/-- The block that a body describes. -/
def Body.toBlock : {k : Kind} → {t : Ty} → Body k t → Block (builder k) Env t
  | _, _, .bind p c rest => .bind (fun env => c.build env) p.extend rest.toBlock
  | _, _, .define x e rest =>
    .define (fun env => do return env.define x (← e.eval env)) rest.toBlock
  | _, _, .definePair x y e rest =>
    .define (fun env => do
      let (a, b) ← (← e.eval env).toEl .pair
      return (env.define x (.int a)).define y (.int b)) rest.toBlock
  | _, t, .yield e rest =>
    .yield (Builder.sequence_merges Act El) (fun env => do (← e.eval env).toEl t) rest.toBlock
  | _, t, .result e => .result fun env => do (← e.eval env).toEl t
  | _, _, .finish c => .finish fun env => c.build env

/-- The steps that are recorded. -/
def Steps.toList : {k : Kind} → {t : Ty} → Steps k t → Env → List (Step (builder k) t)
  | _, _, .done, _ => []
  | _, _, .bind x next rest, env => .bind (fun u => next.build (env.bind x u)) :: rest.toList env
  | _, t, .yield x value rest, env =>
    .yield (Builder.sequence_merges Act El) (fun u => do (← value.eval (env.bind x u)).toEl t) ::
      rest.toList env

end

end Workflow.Script
