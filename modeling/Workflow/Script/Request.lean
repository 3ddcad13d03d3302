import Workflow.Script.Gallery
import Workflow.Script.Recorder
import Workflow.Script.Shelf

/-!
# Requests: what can be asked of the library

A request is one self-contained question: make a computation and drive it, combine two, show one,
work through operations on sequencers, signals or sequences, or show a builder or a refusal. It is
answered in a fresh session in which some signals have been made beforehand.
-/

namespace Workflow

/-- The refusal for inspection. -/
def Refusal.inspect (r : Refusal) : String :=
  Text.record "UnsupportedOperation"
    [("builder", Text.quoted r.builder), ("operation", Text.quoted r.operation)]

end Workflow

namespace Workflow.Script

/-- A question. -/
inductive Request where
  | run {k : Kind} {t : Ty} (plan : Plan k t) (uses : List Use)
  | combine {k : Kind} {t : Ty} (first second : Plan k t) (uses : List Use)
  | texts {k : Kind} {t : Ty} (plan : Plan k t)
  | builder (k : Kind)
  | sequencers {k : Kind} {t : Ty} (ops : List (SequencerOp k t))
  | signals (ops : List Signal.Op)
  | shelf {t : Ty} (ops : List ShelfOp)
  /-- A refusal, and whether another one is the same. -/
  | refusal (r : Refusal) (other : Option Refusal)

/-- An operation on signals, and what every signal would answer after it. -/
structure SignalReport where
  answer : Except Fault Signal.Answer
  states : List (String × Bool)

/-- The answer to a request. -/
inductive Answer where
  | driven (d : Driven)
  /-- Two computations were not combined. -/
  | refused (r : Refusal)
  | texts (inspected : String) (displayed : Option String)
  | builder (name inspected : String)
  | sequencers (steps : List (Report SequencerAnswer))
  | signals (steps : List SignalReport)
  | shelf (steps : List (Report ShelfAnswer))
  | refusal (r : Refusal) (same : Option Bool)

/-- Performs operations on signals in order. -/
def signalReports (r : Signal.Registry) : List Signal.Op → List SignalReport
  | [] => []
  | op :: ops =>
    match r.step op with
    | some (answer, r) => ⟨.ok answer, r.states⟩ :: signalReports r ops
    | none => ⟨.error .senseless, r.states⟩ :: signalReports r ops

/-- Makes both computations and combines them. -/
def combination {k : Kind} {t : Ty} (first second : Plan k t) :
    Act (Except Refusal (Comp k t)) := do
  let c ← first.build .empty
  (builder k).combine c (← second.build .empty)

namespace Request

/-- The answer in a session. -/
def answerIn (session : Session) : Request → Report Answer
  | run plan uses => (makeAndDrive (plan.build .empty) uses session).1.map .driven
  | combine first second uses =>
    let (report, session) := session.perform (combination first second)
    let result : Except Fault Answer := match report.result with
      | .error fault => .error fault
      | .ok (.error r) => .ok (.refused r)
      | .ok (.ok c) => .ok (.driven (drive c uses session).1)
    ⟨result, report.journal⟩
  | texts plan =>
    (session.perform (plan.build .empty)).1.map fun c =>
      let (inspected, displayed) := Script.texts c
      .texts inspected displayed
  | builder k => ⟨.ok (.builder (Script.builder k).name k.inspect), []⟩
  | sequencers ops => ⟨.ok (.sequencers (Recorder.run .empty session ops)), []⟩
  | signals ops => ⟨.ok (.signals (signalReports session.signals ops)), []⟩
  | shelf (t := t) ops => ⟨.ok (.shelf (Shelf.run (.empty : Shelf t) session ops)), []⟩
  | refusal r other => ⟨.ok (.refusal r (other.map fun o => decide (r = o))), []⟩

/-- The answer, once the signals have been made. -/
def answer (request : Request) (signals : List Signal.Op) : Report Answer :=
  match (signals.forM fun op => discard (Act.signal op) : Act Unit).run .fresh with
  | .error fault _ => ⟨.error fault, []⟩
  | .ok () session => answerIn session request

end Request

end Workflow.Script
