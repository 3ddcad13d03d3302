import Workflow.Script.Kind

/-!
# Programs: expressions and plans

An *expression* is what a user's closure does: it computes a datum and may note, count, cancel, ask
or give up on the way. A *plan* says how to make a computation of a given kind and element type with
the library's operations; where the library takes a closure, the plan has an expression or another
plan in which the closure's argument has a name.

Kind and element type are part of a plan's type, so a plan cannot mix builders. Expressions carry no
types; what they evaluate to is looked at where it is used.
-/

namespace Workflow.Script

/-- The operations on data. Integers wrap round at 64 bits. -/
inductive Prim where
  | add | sub | mul | neg
  /-- Division toward zero; it gives up on zero and on the one quotient that does not fit. -/
  | div
  /-- The remainder of `div`, with the same limits. -/
  | rem
  /-- Division toward zero that wraps; it gives up on zero only. -/
  | wrappingDiv
  | min | max | lt | eq | not
  /-- Joins two texts. -/
  | cat
  /-- The text of an integer, a boolean or a text. -/
  | str
  /-- The length of a list, or of a text in characters. -/
  | len
  /-- The length of a text in bytes. -/
  | size
  | pair | fst | snd
  | list
  /-- A list with one more datum at its end. -/
  | push
  /-- The sum of a list of integers. -/
  | sum
  | some | none
  deriving DecidableEq, Repr

/-- The names that a bound element gets. -/
inductive Pattern : Ty → Type where
  | name {t : Ty} (x : String) : Pattern t
  | wildcard {t : Ty} : Pattern t
  | pair (x y : String) : Pattern .pair

mutual

/-- What a closure does. -/
inductive Expr : Type where
  | lit (v : Datum)
  | var (x : String)
  /-- Evaluates the arguments from left to right. -/
  | app (op : Prim) (args : List Expr)
  | cond (test yes no : Expr)
  | and (a b : Expr)
  | or (a b : Expr)
  /-- The datum in an option, or else the other expression. -/
  | orElse (option other : Expr)
  /-- Notes a value under a label. -/
  | log (label : String) (e : Expr)
  /-- Leaves a word, then evaluates. -/
  | remark (word : String) (e : Expr)
  /-- Counts one more and answers the count. -/
  | tick (counter : String)
  /-- Cancels a signal, then evaluates. -/
  | cancel (signal : String) (e : Expr)
  /-- Asks a signal. -/
  | poll (signal : String)
  | panic (text : String)
  /-- Makes an optional computation and answers it as an option. -/
  | runOptional {t : Ty} (c : Plan .optional t)
  /-- Makes a sequence and answers it as a list. -/
  | runSequence {t : Ty} (c : Plan .sequence t)
  /-- Makes a computation over an integer and answers its value from an initial state. -/
  | evalState {t : Ty} (c : Plan (.state .int) t) (initial : Expr)
  /-- Makes a computation over an integer and answers the state it ends in. -/
  | execState {t : Ty} (c : Plan (.state .int) t) (initial : Expr)
  /-- Makes a task, runs it under a signal and answers its value. -/
  | runCancellable {t : Ty} (c : Plan .cancellable t) (signal : String)
  /-- Makes a task, runs it under a signal and answers whether it was cut short. -/
  | wasCancelled {t : Ty} (c : Plan .cancellable t) (signal : String)

/-- How to make a computation. Expressions named `e` are evaluated, and plans are followed, when the
computation is made; those that follow a name are evaluated or followed whenever the library calls
the closure, whose argument has that name. -/
inductive Plan : Kind → Ty → Type where
  | pure {k : Kind} {t : Ty} (e : Expr) : Plan k t
  | zero {k : Kind} {t : Ty} : Plan k t
  | bind {k : Kind} {s t : Ty} (c : Plan k s) (x : String) (next : Plan k t) : Plan k t
  | map {k : Kind} {s t : Ty} (c : Plan k s) (x : String) (value : Expr) : Plan k t
  | andThen {k : Kind} {s t : Ty} (first : Plan k s) (second : Plan k t) : Plan k t
  /-- Combines two computations; gives up if the builder refuses. -/
  | combine {k : Kind} {t : Ty} (first second : Plan k t) : Plan k t
  /-- Combines two computations; follows the third plan if the builder refuses. -/
  | combineOr {k : Kind} {t : Ty} (first second other : Plan k t) : Plan k t
  | run {k : Kind} {t : Ty} (body : Plan k t) : Plan k t
  | choose {k : Kind} {t : Ty} (e : Expr) (yes no : Plan k t) : Plan k t
  | define {k : Kind} {t : Ty} (x : String) (e : Expr) (body : Plan k t) : Plan k t
  /-- Makes a computation once, for every use in the body. -/
  | share {k : Kind} {s t : Ty} (x : String) (c : Plan k s) (body : Plan k t) : Plan k t
  | use {k : Kind} {t : Ty} (x : String) : Plan k t
  /-- `n` binds with the same closure, nested to the left. -/
  | chainLeft {k : Kind} {t : Ty} (n : Nat) (c : Plan k t) (x : String) (next : Plan k t) : Plan k t
  /-- `n` binds with the same closure, nested to the right. -/
  | chainRight {k : Kind} {t : Ty} (n : Nat) (c : Plan k t) (x : String) (next : Plan k t) :
    Plan k t
  | block {k : Kind} {t : Ty} (body : Body k t) : Plan k t
  /-- Records steps, makes the start, and builds. -/
  | sequencer {k : Kind} {t : Ty} (steps : Steps k t) (start : Plan k t) (x : String)
      (finish : Expr) : Plan k t
  /-- The quotient of two integers, as an element of type `t`; absent where it does not exist or
  does not fit. -/
  | quotient {t : Ty} (a b : Expr) : Plan .optional t
  /-- The second value if the first one holds; it is evaluated only then. -/
  | whenever {t : Ty} (test value : Expr) : Plan .optional t
  | append {t : Ty} (first second : Plan .sequence t) : Plan .sequence t
  /-- A value in front of a sequence. -/
  | yield {t : Ty} (e : Expr) (rest : Plan .sequence t) : Plan .sequence t
  | items {t : Ty} (es : List Expr) : Plan .sequence t
  /-- The sequence of the data in a list. -/
  | elements {t : Ty} (e : Expr) : Plan .sequence t
  /-- The integers from the first value on, below the second, as elements of type `t`. -/
  | range {t : Ty} (a b : Expr) : Plan .sequence t
  /-- As `bind`; the closure also sees, as `i`, how often it was called before. -/
  | flatMap {s t : Ty} (c : Plan .sequence s) (x : String) (next : Plan .sequence t) :
      Plan .sequence t
  | get {s : Ty} : Plan (.state s) s
  | put {s : Ty} (e : Expr) : Plan (.state s) .unit
  | modify {s : Ty} (x : String) (value : Expr) : Plan (.state s) .unit
  | gets {s t : Ty} (x : String) (value : Expr) : Plan (.state s) t
  /-- The value and the next state, both from the old state. -/
  | transform {s t : Ty} (x : String) (value next : Expr) : Plan (.state s) t
  /-- Applies a closure to the value, without a bind. -/
  | mapState {s r t : Ty} (c : Plan (.state s) r) (x : String) (value : Expr) : Plan (.state s) t
  | thenState {s r t : Ty} (first : Plan (.state s) r) (second : Plan (.state s) t) :
      Plan (.state s) t
  /-- Work that is done when the task is run. -/
  | delay {t : Ty} (value : Expr) : Plan .cancellable t
  /-- A task that asks its signal a number of times, and says itself whether it was cut short; the
  last answer is called `p`. -/
  | probe {t : Ty} (polls : Nat) (value cancelled : Expr) : Plan .cancellable t

/-- The steps of a block. -/
inductive Body : Kind → Ty → Type where
  | bind {k : Kind} {s t : Ty} (p : Pattern s) (c : Plan k s) (rest : Body k t) : Body k t
  | define {k : Kind} {t : Ty} (x : String) (e : Expr) (rest : Body k t) : Body k t
  /-- Names the two halves of a pair. -/
  | definePair {k : Kind} {t : Ty} (x y : String) (e : Expr) (rest : Body k t) : Body k t
  | yield {t : Ty} (e : Expr) (rest : Body .sequence t) : Body .sequence t
  | result {k : Kind} {t : Ty} (e : Expr) : Body k t
  | finish {k : Kind} {t : Ty} (c : Plan k t) : Body k t

/-- The steps of a sequencer. -/
inductive Steps : Kind → Ty → Type where
  | done {k : Kind} {t : Ty} : Steps k t
  | bind {k : Kind} {t : Ty} (x : String) (next : Plan k t) (rest : Steps k t) : Steps k t
  | yield {t : Ty} (x : String) (value : Expr) (rest : Steps .sequence t) : Steps .sequence t

end

end Workflow.Script
