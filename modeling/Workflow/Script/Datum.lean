import Workflow.Json.Format

/-!
# Data: the element types of scripts and their values

Scripts compute with nine element types, named by `Ty`. `El t` is the type of the elements proper;
`Datum` is what an expression evaluates to. The two differ where one sort of datum serves two
element types: an integer is an element of `int` or, by its low 32 bits, of `int32`, and a list of
integers is an element of `list` or of `sequence`. Lists and options of other data are no elements:
they occur only on the way to sequences of other elements, and on the way from computations of
other elements. `Datum.ofEl` forgets the element type and `Datum.toEl?` finds it again, where it can
be found.

Three texts belong to an element: for inspection, for people (where there is one), and as JSON.
-/

namespace Workflow.Script

/-- The names of the element types. -/
inductive Ty where
  | unit | bool | int | int32 | text | pair | list | option | sequence
  deriving DecidableEq, Repr

/-- The elements of each type. -/
abbrev El : Ty → Type
  | .unit => Unit
  | .bool => Bool
  | .int => Int64
  | .int32 => Int32
  | .text => String
  | .pair => Int64 × Int64
  | .list => List Int64
  | .option => Option Int64
  | .sequence => Sequence Int64

instance : (t : Ty) → Inhabited (El t)
  | .unit => ⟨()⟩
  | .bool => ⟨false⟩
  | .int => ⟨0⟩
  | .int32 => ⟨0⟩
  | .text => ⟨""⟩
  | .pair => ⟨(0, 0)⟩
  | .list => ⟨[]⟩
  | .option => ⟨none⟩
  | .sequence => ⟨.empty⟩

instance : (t : Ty) → DecidableEq (El t)
  | .unit => inferInstanceAs (DecidableEq Unit)
  | .bool => inferInstanceAs (DecidableEq Bool)
  | .int => inferInstanceAs (DecidableEq Int64)
  | .int32 => inferInstanceAs (DecidableEq Int32)
  | .text => inferInstanceAs (DecidableEq String)
  | .pair => inferInstanceAs (DecidableEq (Int64 × Int64))
  | .list => inferInstanceAs (DecidableEq (List Int64))
  | .option => inferInstanceAs (DecidableEq (Option Int64))
  | .sequence => inferInstanceAs (DecidableEq (Sequence Int64))

/-- The value of an expression. -/
inductive Datum where
  | unit
  | bool (b : Bool)
  | int (n : Int64)
  | text (s : String)
  | pair (a b : Int64)
  | list (vs : List Datum)
  | absent
  | present (v : Datum)
  deriving Repr, Inhabited

namespace Datum

mutual

/-- Whether two data are the same. -/
def same : Datum → Datum → Bool
  | unit, unit => true
  | bool a, bool b => a == b
  | int a, int b => a == b
  | text a, text b => a == b
  | pair a b, pair c d => a == c && b == d
  | list as, list bs => sameAll as bs
  | absent, absent => true
  | present a, present b => same a b
  | _, _ => false

def sameAll : List Datum → List Datum → Bool
  | [], [] => true
  | a :: as, b :: bs => same a b && sameAll as bs
  | _, _ => false

end

mutual

theorem same_self : (a : Datum) → same a a = true
  | unit | absent => rfl
  | bool _ | int _ | text _ | pair _ _ => by simp [same]
  | list as => by simp [same, sameAll_self as]
  | present a => by simp [same, same_self a]

theorem sameAll_self : (as : List Datum) → sameAll as as = true
  | [] => rfl
  | a :: as => by simp [sameAll, same_self a, sameAll_self as]

end

mutual

theorem eq_of_same : (a b : Datum) → same a b = true → a = b
  | unit, b, h => by cases b <;> simp_all [same]
  | bool _, b, h => by cases b <;> simp_all [same]
  | int _, b, h => by cases b <;> simp_all [same]
  | text _, b, h => by cases b <;> simp_all [same]
  | pair _ _, b, h => by cases b <;> simp_all [same]
  | absent, b, h => by cases b <;> simp_all [same]
  | list as, b, h => by
    cases b with
    | list bs => rw [eq_of_sameAll as bs (by simpa [same] using h)]
    | _ => simp [same] at h
  | present a, b, h => by
    cases b with
    | present b => rw [eq_of_same a b (by simpa [same] using h)]
    | _ => simp [same] at h

theorem eq_of_sameAll : (as bs : List Datum) → sameAll as bs = true → as = bs
  | [], [], _ => rfl
  | a :: as, b :: bs, h => by
    have h : same a b = true ∧ sameAll as bs = true := by simpa [sameAll] using h
    rw [eq_of_same a b h.1, eq_of_sameAll as bs h.2]
  | [], _ :: _, h => by simp [sameAll] at h
  | _ :: _, [], h => by simp [sameAll] at h

end

instance : DecidableEq Datum := fun a b =>
  decidable_of_iff (same a b = true) ⟨eq_of_same a b, fun h => h ▸ same_self a⟩

/-- The element as the value of a variable. -/
def ofEl : {t : Ty} → El t → Datum
  | .unit, () => unit
  | .bool, b => bool b
  | .int, n => int n
  | .int32, n => int n.toInt64
  | .text, s => text s
  | .pair, (a, b) => pair a b
  | .list, ns => list (ns.map int)
  | .option, none => absent
  | .option, some n => present (int n)
  | .sequence, s => list (s.elements.map int)

/-- The integers among data that are all integers. -/
def toInts? : List Datum → Option (List Int64)
  | [] => some []
  | int n :: rest => (toInts? rest).map (n :: ·)
  | _ :: _ => none

theorem toInts?_map_int (ns : List Int64) : toInts? (ns.map int) = some ns := by
  induction ns with
  | nil => rfl
  | cons n ns ih => simp [toInts?, ih]

/-- The optional integer that an option holds. -/
def toOption? : Datum → Option (Option Int64)
  | absent => some none
  | present (int n) => some (some n)
  | _ => none

/-- The datum as an element of type `t`. -/
def toEl? : (t : Ty) → Datum → Option (El t)
  | .unit, unit => some ()
  | .bool, bool b => some b
  | .int, int n => some n
  | .int32, int n => some n.toInt32
  | .text, text s => some s
  | .pair, pair a b => some (a, b)
  | .list, list vs => toInts? vs
  | .option, v => toOption? v
  | .sequence, list vs => (toInts? vs).map .mk
  | _, _ => none

theorem toEl?_ofEl : {t : Ty} → (u : El t) → toEl? t (ofEl u) = some u
  | .unit, () => rfl
  | .bool, _ => rfl
  | .int, _ => rfl
  | .int32, n => congrArg some n.toInt32_toInt64
  | .text, _ => rfl
  | .pair, (_, _) => rfl
  | .list, ns => toInts?_map_int ns
  | .option, none => rfl
  | .option, some _ => rfl
  | .sequence, s => congrArg (Option.map Sequence.mk) (toInts?_map_int s.elements)

/-- An integer as JSON. -/
def writeInt64 (n : Int64) : List Char := Json.writeInt n.toInt

mutual

/-- The datum as JSON. A pair and an option say what they are, so that different data look
different. -/
def write : Datum → List Char
  | unit => Json.writeNull
  | bool b => Json.writeBool b
  | int n => writeInt64 n
  | text s => Json.writeText s
  | pair a b => Json.writeObject "pair" (Json.writeArray [writeInt64 a, writeInt64 b])
  | list vs => Json.writeArray (writeAll vs)
  | absent => Json.writeObject "none" Json.writeNull
  | present v => Json.writeObject "some" v.write

def writeAll : List Datum → List (List Char)
  | [] => []
  | v :: vs => v.write :: writeAll vs

end

end Datum

namespace El

/-- The element for inspection. -/
def inspect : {t : Ty} → El t → String
  | .unit, () => "()"
  | .bool, b => toString b
  | .int, n => toString n
  | .int32, n => toString n
  | .text, s => Text.quoted s
  | .pair, (a, b) => Text.applied "" [toString a, toString b]
  | .list, ns => Text.listed (ns.map toString)
  | .option, none => "None"
  | .option, some n => Text.applied "Some" [toString n]
  | .sequence, s => Sequence.inspect toString s

/-- The element for people, where its type has such a text. -/
def display? : (t : Ty) → Option (El t → String)
  | .bool => some fun b => toString b
  | .int => some fun n => toString n
  | .int32 => some fun n => toString n
  | .text => some id
  | .sequence => some fun s => Sequence.display toString s
  | .unit | .pair | .list | .option => none

/-- Reads an integer of 64 bits. -/
def readInt64 : Json.Reader Int64 := fun cs => do
  let (n, rest) ← Json.readInt Int64.minValue.toInt Int64.maxValue.toInt cs
  return (Int64.ofInt n, rest)

/-- Reads an integer of 32 bits. -/
def readInt32 : Json.Reader Int32 := fun cs => do
  let (n, rest) ← Json.readInt Int32.minValue.toInt Int32.maxValue.toInt cs
  return (Int32.ofInt n, rest)

/-- Sequences of integers of 64 bits as JSON. -/
def int64s : Codec Json.Defect (Sequence Int64) :=
  Sequence.codec Json.format ⟨Datum.writeInt64, readInt64⟩

/-- The element as plain JSON. -/
def write : {t : Ty} → El t → List Char
  | .unit, () => Json.writeNull
  | .bool, b => Json.writeBool b
  | .int, n => Datum.writeInt64 n
  | .int32, n => Json.writeInt n.toInt
  | .text, s => Json.writeText s
  | .pair, (a, b) => Json.writeArray [Datum.writeInt64 a, Datum.writeInt64 b]
  | .list, ns => Json.writeArray (ns.map Datum.writeInt64)
  | .option, none => Json.writeNull
  | .option, some n => Datum.writeInt64 n
  | .sequence, s => int64s.write s

/-- Reads an element of a known type. -/
def read : (t : Ty) → Json.Reader (El t)
  | .unit => Json.readUnit
  | .bool => Json.readBool
  | .int => readInt64
  | .int32 => readInt32
  | .text => Json.readText
  | .pair => Json.readPair readInt64 readInt64
  | .list => Json.readList readInt64
  | .option => Json.readOption readInt64
  | .sequence => int64s.read

/-- The elements of type `t` as JSON. -/
def codec (t : Ty) : Codec Json.Defect (El t) := ⟨write, read t⟩

end El

end Workflow.Script
