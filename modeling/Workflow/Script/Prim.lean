import Workflow.Script.Program

/-!
# Operations on data

`Prim.apply` is what the operations of expressions compute. Integers are 64 bits wide and wrap
round; division gives up where its result does not exist or does not fit, looking at the divisor
first. An operation on data of the wrong sort makes no sense.
-/

namespace Workflow.Script

/-- The quotient toward zero. -/
def checkedDiv (a b : Int64) : Except Fault Int64 :=
  if b = 0 then .error .divisionByZero
  else if a = Int64.minValue ∧ b = -1 then .error .divisionOverflow
  else .ok (a / b)

/-- The remainder of the quotient toward zero. -/
def checkedRem (a b : Int64) : Except Fault Int64 :=
  if b = 0 then .error .remainderByZero
  else if a = Int64.minValue ∧ b = -1 then .error .remainderOverflow
  else .ok (a % b)

/-- The integers that a list holds. -/
def Datum.ints (vs : List Datum) : Except Fault (List Int64) :=
  match Datum.toInts? vs with
  | some ns => .ok ns
  | none => .error .senseless

/-- The value of an operation. -/
def Prim.apply : Prim → List Datum → Except Fault Datum
  | .add, [.int a, .int b] => .ok (.int (a + b))
  | .sub, [.int a, .int b] => .ok (.int (a - b))
  | .mul, [.int a, .int b] => .ok (.int (a * b))
  | .neg, [.int a] => .ok (.int (-a))
  | .div, [.int a, .int b] => .int <$> checkedDiv a b
  | .rem, [.int a, .int b] => .int <$> checkedRem a b
  | .wrappingDiv, [.int a, .int b] =>
    if b = 0 then .error .divisionByZero else .ok (.int (a / b))
  | .min, [.int a, .int b] => .ok (.int (if b < a then b else a))
  | .max, [.int a, .int b] => .ok (.int (if a < b then b else a))
  | .lt, [.int a, .int b] => .ok (.bool (a < b))
  | .eq, [a, b] => .ok (.bool (a = b))
  | .not, [.bool a] => .ok (.bool (!a))
  | .cat, [.text a, .text b] => .ok (.text (a ++ b))
  | .str, [.int n] => .ok (.text (toString n))
  | .str, [.bool b] => .ok (.text (toString b))
  | .str, [.text s] => .ok (.text s)
  | .len, [.text s] => .ok (.int (Int64.ofNat s.length))
  | .len, [.list vs] => .ok (.int (Int64.ofNat vs.length))
  | .size, [.text s] => .ok (.int (Int64.ofNat s.utf8ByteSize))
  | .pair, [.int a, .int b] => .ok (.pair a b)
  | .fst, [.pair a _] => .ok (.int a)
  | .snd, [.pair _ b] => .ok (.int b)
  | .list, args => .ok (.list args)
  | .push, [.list vs, v] => .ok (.list (vs ++ [v]))
  | .sum, [.list vs] => do return .int (← Datum.ints vs).sum
  | .some, [v] => .ok (.present v)
  | .none, [] => .ok .absent
  | _, _ => .error .senseless

end Workflow.Script
