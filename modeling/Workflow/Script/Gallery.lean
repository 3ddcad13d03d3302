import Workflow.Script.Program

/-!
# The gallery: worked programs

Programs with a name, of some arguments, that show what blocks are for: divisions that may fail,
generators with yields, counters that thread a state, and tasks that cancel themselves on the way.
-/

namespace Workflow.Script

/-- A program for one of the builders. -/
structure Exhibit where
  kind : Kind
  type : Ty
  plan : Plan kind type

namespace Gallery

/-! ## Expressions in short -/

/-- A variable. -/
def v (x : String) : Expr := .var x

def int (n : Int64) : Expr := .lit (.int n)

/-- An operation on two expressions. -/
def op (p : Prim) (a b : Expr) : Expr := .app p [a, b]

/-- The quotient as an option: none for a zero divisor, else wrapping. -/
def tryDivide (a b : Expr) : Plan .optional .int :=
  .choose (op .eq b (int 0)) .zero (.pure (op .wrappingDiv a b))

/-- Notes the value of a variable under its own name. -/
def noteVar {k : Kind} {t : Ty} (x : String) (rest : Body k t) : Body k t :=
  .define "noted" (.log x (v x)) rest

/-- Goes on only if the test fails. -/
def skipIf {k : Kind} {t : Ty} (test : Expr) (rest : Body k t) : Body k t :=
  .bind (.wildcard : Pattern .unit) (.choose test .zero (.pure (.lit .unit))) rest

/-- `x` is bound to the values of `c`. -/
def each {k : Kind} {s t : Ty} (x : String) (c : Plan k s) (rest : Body k t) : Body k t :=
  .bind (.name x) c rest

/-- `c` is done for its effect. -/
def perform {k : Kind} {t : Ty} (c : Plan k .unit) (rest : Body k t) : Body k t :=
  .bind .wildcard c rest

/-- Cancels the signal `t` if the test holds. -/
def cancelIf {k : Kind} {t : Ty} (test : Expr) (rest : Body k t) : Body k t :=
  .define "cancelled" (.cond test (.cancel "t" (.lit .unit)) (.lit .unit)) rest

/-! ## Programs -/

/-- Three divisions in a row, each of the quotient before. -/
def divisionChain (n d₁ d₂ d₃ : Int64) : Plan .optional .int :=
  .block <|
    each "a" (tryDivide (int n) (int d₁)) <| noteVar "a" <|
    each "b" (tryDivide (v "a") (int d₂)) <| noteVar "b" <|
    each "c" (tryDivide (v "b") (int d₃)) <|
    .result (v "c")

/-- Quotient and remainder in order, if they differ. -/
def optionPatterns (n d : Int64) : Plan .optional .text :=
  let divided : Plan .optional .pair :=
    .map (tryDivide (int n) (int d)) "q"
      (op .pair (v "q") (op .sub (int n) (op .mul (v "q") (int d))))
  .block <|
    .bind (.pair "q" "r") divided <|
    .definePair "lo" "hi"
      (op .pair (op .min (v "q") (v "r")) (op .max (v "q") (v "r"))) <|
    skipIf (op .eq (v "lo") (v "hi")) <|
    .result (op .cat (op .cat (.app .str [v "lo"]) (.lit (.text ".."))) (.app .str [v "hi"]))

/-- The elements of a list, one by one. -/
def elements (ns : List Int64) : Plan .sequence .int := .items (ns.map int)

/-- Both factors and the product, for every two elements. -/
def nestedYield (xs ys : List Int64) : Plan .sequence .int :=
  .block <|
    each "item" (elements xs) <|
    each "item2" (elements ys) <|
    .yield (v "item") <|
    .yield (v "item2") <|
    .result (op .mul (v "item") (v "item2"))

/-- A yield before an inner bind, and one within. -/
def yieldBeforeBind (xs ys : List Int64) : Plan .sequence .int :=
  .block <|
    each "outer" (elements xs) <|
    .yield (.app .neg [v "outer"]) <|
    each "inner" (elements ys) <|
    .yield (v "inner") <|
    .result (op .add (v "outer") (v "inner"))

/-- The elements other than `skip`. -/
def filtered (xs : List Int64) (skip : Int64) : Plan .sequence .int :=
  .block <|
    each "x" (elements xs) <|
    skipIf (op .eq (v "x") (int skip)) <|
    .result (v "x")

/-- All pairs. -/
def pairs (xs ys : List Int64) : Plan .sequence .pair :=
  .block <|
    each "x" (elements xs) <|
    each "y" (elements ys) <|
    .result (op .pair (v "x") (v "y"))

/-- The state before and after an addition and a multiplication. -/
def counter (step factor : Int64) : Plan (.state .int) .pair :=
  .block <|
    each "before" .get <|
    perform (.modify "s" (op .add (v "s") (int step))) <|
    perform (.modify "s" (op .mul (v "s") (int factor))) <|
    each "after" .get <|
    .result (op .pair (v "before") (v "after"))

/-- How far a put moves the state. -/
def putGet (value : Int64) : Plan (.state .int) .int :=
  .block <|
    each "current" .get <|
    perform (.put (int value)) <|
    each "next" .get <|
    .result (op .sub (v "next") (v "current"))

/-- An inner computation evaluated within an outer one. -/
def nestedState : Plan (.state .int) .int :=
  let hundredfold : Plan (.state .int) .int :=
    .map (.get : Plan (.state .int) .int) "n" (op .mul (v "n") (int 100))
  .block <|
    each "outer" .get <|
    .define "inner" (.evalState hundredfold (op .add (v "outer") (int 1))) <|
    perform (.put (op .add (v "outer") (int 10))) <|
    .result (v "inner")

/-- Additions that may be cancelled after each. -/
def threeAdditions (start cancelAt : Int64) : Plan .cancellable .int :=
  let at_ (n : Int64) : Expr := .lit (.bool (cancelAt = n))
  let work (word : String) (n : Int64) : Plan .cancellable .int :=
    .delay (.remark word (op .add (v "op") (int n)))
  .block <|
    each "op" (.pure (int start) : Plan .cancellable .int) <|
    cancelIf (at_ 1) <|
    each "op" (work "first" 1) <|
    cancelIf (at_ 2) <|
    each "op" (work "second" 10) <|
    cancelIf (at_ 3) <|
    .result (v "op")

/-- Tasks of different types, with a cancellation between them. -/
def mixedTypes (n : Int64) (cancel : Bool) : Plan .cancellable .text :=
  .block <|
    each "n" (.pure (int n) : Plan .cancellable .int) <|
    each "text" (.delay (.app .str [v "n"]) : Plan .cancellable .text) <|
    cancelIf (.lit (.bool cancel)) <|
    .define "longer" (op .cat (v "text") (.lit (.text "!"))) <|
    each "size" (.delay (.app .size [v "longer"]) : Plan .cancellable .int) <|
    .result (op .cat (v "longer") (.app .str [v "size"]))

end Gallery

open Gallery in
/-- The program of a name and its arguments. -/
def gallery? : String → List Datum → Option Exhibit
  | "division_chain", [.int n, .int a, .int b, .int c] => some ⟨_, _, divisionChain n a b c⟩
  | "option_patterns", [.int n, .int d] => some ⟨_, _, optionPatterns n d⟩
  | "nested_yield", [.list xs, .list ys] => do
    return ⟨_, _, nestedYield (← Datum.toInts? xs) (← Datum.toInts? ys)⟩
  | "yield_before_bind", [.list xs, .list ys] => do
    return ⟨_, _, yieldBeforeBind (← Datum.toInts? xs) (← Datum.toInts? ys)⟩
  | "filtered", [.list xs, .int skip] => do
    return ⟨_, _, filtered (← Datum.toInts? xs) skip⟩
  | "pairs", [.list xs, .list ys] => do
    return ⟨_, _, pairs (← Datum.toInts? xs) (← Datum.toInts? ys)⟩
  | "counter", [.int step, .int factor] => some ⟨_, _, counter step factor⟩
  | "put_get", [.int value] => some ⟨_, _, putGet value⟩
  | "nested_state", [] => some ⟨_, _, nestedState⟩
  | "three_additions", [.int start, .int cancelAt] => some ⟨_, _, threeAdditions start cancelAt⟩
  | "mixed_types", [.int n, .bool cancel] => some ⟨_, _, mixedTypes n cancel⟩
  | _, _ => none

end Workflow.Script
