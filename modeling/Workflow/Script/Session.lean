import Workflow.Script.Datum
import Workflow.Signal
import Workflow.Signal.Registry

/-!
# Sessions: the world in which scripts run

A script runs in a session: it appends entries to a journal, counts in named counters, and cancels
and asks named signals. `Act` is the monad of that. An act that fails keeps what was done up to the
failure.

The library reports to the journal as well, so the journal shows the script's doings and the
library's in the one order in which they happened.
-/

namespace Workflow.Script

/-- Why an act failed. -/
inductive Fault where
  /-- The script gave up. -/
  | panicked (text : String)
  | divisionByZero
  | divisionOverflow
  | remainderByZero
  | remainderOverflow
  /-- A builder refused, and the script had no way round it. -/
  | refused (r : Refusal)
  /-- A text was not the JSON of a sequence. -/
  | unreadable (d : Json.Defect)
  /-- The script makes no sense: a name is unbound, or a value of another type is needed. -/
  | senseless
  deriving DecidableEq, Repr

/-- The fault for people. -/
def Fault.message : Fault → String
  | panicked text => text
  | divisionByZero => "attempt to divide by zero"
  | divisionOverflow => "attempt to divide with overflow"
  | remainderByZero => "attempt to calculate the remainder with a divisor of zero"
  | remainderOverflow => "attempt to calculate the remainder with overflow"
  | refused r => r.message
  | unreadable d => d.name
  | senseless => "the script makes no sense"

/-- What a journal holds. -/
inductive Entry where
  /-- A value that the script noted under a label. -/
  | note (label : String) (value : Datum)
  /-- A word that the script left. -/
  | remark (word : String)
  /-- A run asked its signal and got this answer. -/
  | polled (answer : Bool)
  /-- A report of the library. -/
  | notice (n : Notice)
  deriving DecidableEq, Repr

/-- The entry as a line of text. -/
def Entry.line : Entry → String
  | note label value => label ++ "=" ++ String.ofList value.write
  | remark word => word
  | polled answer => "poll " ++ toString answer
  | notice n => n.line

/-- The world of a script. -/
structure Session where
  journal : Array Entry
  counters : Named Int64
  signals : Signal.Registry
  deriving DecidableEq, Repr

/-- Nothing done yet. -/
def Session.fresh : Session := ⟨#[], .empty, .empty⟩

/-- What scripts do. -/
abbrev Act := EStateM Fault Session

namespace Act

variable {α : Type}

/-- Appends an entry to the journal. -/
def record (entry : Entry) : Act Unit :=
  modify fun s => { s with journal := s.journal.push entry }

instance : Reports Act := ⟨fun n => record (.notice n)⟩

/-- The value, or `senseless` if there is none. -/
def ofOption : Option α → Act α
  | some a => return a
  | none => throw .senseless

def ofExcept : Except Fault α → Act α
  | .ok a => return a
  | .error fault => throw fault

/-- Counts one more in a counter and answers the count. -/
def tick (counter : String) : Act Int64 := do
  let s ← get
  let count := (s.counters.find? counter).getD 0 + 1
  set { s with counters := s.counters.insert counter count }
  return count

/-- Asks a signal. -/
def poll (signal : String) : Act Bool := do
  let s ← get
  let (answer, signals) ← ofOption (s.signals.poll signal)
  set { s with signals }
  return answer

/-- Cancels a signal. -/
def cancel (signal : String) : Act Unit := do
  let s ← get
  let signals ← ofOption (s.signals.cancel signal)
  set { s with signals }

/-- Performs an operation on signals. -/
def signal (op : Signal.Op) : Act Signal.Answer := do
  let s ← get
  let (answer, signals) ← ofOption (s.signals.step op)
  set { s with signals }
  return answer

/-- A named signal as a run sees it: every question and its answer go into the journal. -/
def watch (name : String) : Signal Act :=
  Signal.watched ⟨poll name⟩ fun answer => record (.polled answer)

end Act

/-- How an act came out, and the entries that it left. -/
structure Report (α : Type) where
  result : Except Fault α
  journal : List Entry

/-- The report on what `f` makes of the result. -/
def Report.map {α β : Type} (f : α → β) (r : Report α) : Report β := ⟨f <$> r.result, r.journal⟩

/-- Performs an act on a clean page of the journal, and takes the page out. -/
def Session.perform {α : Type} (s : Session) (act : Act α) : Report α × Session :=
  match act.run { s with journal := #[] } with
  | .ok a s => (⟨.ok a, s.journal.toList⟩, { s with journal := #[] })
  | .error fault s => (⟨.error fault, s.journal.toList⟩, { s with journal := #[] })

/-- Performs acts one after the other, whether or not those before succeeded. -/
def Session.performAll {α : Type} : List (Act α) → Session → List (Report α) × Session
  | [], session => ([], session)
  | act :: acts, session =>
    let (report, session) := session.perform act
    let (reports, session) := performAll acts session
    (report :: reports, session)

end Workflow.Script
