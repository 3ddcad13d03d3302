import Workflow.Script.Drive

/-!
# Recorders: sequencers by name

A recorder holds sequencers of one kind and element type under names. Operations make, copy, extend
and inspect them, apply one of their steps on its own, and build them, which uses them up.
-/

namespace Workflow.Script

/-- An operation on named sequencers. -/
inductive SequencerOp (k : Kind) (t : Ty) where
  /-- An empty sequencer. -/
  | new (on : String)
  /-- Records steps, all of them a number of times. -/
  | record (on : String) (times : Nat) (steps : Steps k t)
  | clone (on as : String)
  | inspect (on : String)
  /-- Applies one step to an argument, and drives the result. -/
  | apply (on : String) (index : Nat) (argument : Expr) (uses : List Use)
  /-- Builds a sequencer, and drives the result. -/
  | build (on : String) (start : Plan k t) (x : String) (finish : Expr) (uses : List Use)

/-- What such an operation answers. -/
inductive SequencerAnswer where
  | summary (length : Nat) (isEmpty : Bool) (inspected : String)
  | anatomy (kinds steps : List String) (builder : String)
  | driven (d : Driven)

/-- Sequencers under names. -/
abbrev Recorder (k : Kind) (t : Ty) := Named (Sequencer (builder k) t)

namespace Recorder

variable {k : Kind} {t : Ty}

/-- The sequencer in few words. -/
def summary (q : Sequencer (builder k) t) : SequencerAnswer :=
  .summary q.length q.isEmpty q.inspect

/-- A report without anything in the journal. -/
def plain (result : Except Fault SequencerAnswer) : Report SequencerAnswer := ⟨result, []⟩

/-- Puts a sequencer under a name. -/
def store (r : Recorder k t) (name : String) (q : Sequencer (builder k) t) :
    Report SequencerAnswer × Recorder k t :=
  (plain (.ok (summary q)), r.insert name q)

/-- Performs one operation. -/
def step (r : Recorder k t) (session : Session) :
    SequencerOp k t → Report SequencerAnswer × Recorder k t × Session
  | .new on =>
    let (report, r) := store r on .empty
    (report, r, session)
  | .record on times steps =>
    match r.find? on with
    | none => (plain (.error .senseless), r, session)
    | some q =>
      let recorded : Sequencer (builder k) t := ⟨steps.toList .empty⟩
      let (report, r) := store r on (times.repeat (fun q => q.append recorded) q)
      (report, r, session)
  | .clone on as =>
    match r.find? on with
    | none => (plain (.error .senseless), r, session)
    | some q =>
      let (report, r) := store r as q
      (report, r, session)
  | .inspect on =>
    match r.find? on with
    | none => (plain (.error .senseless), r, session)
    | some q =>
      (plain (.ok (.anatomy (q.steps.map Step.kind) (q.steps.map Step.inspect) k.inspect)),
        r, session)
  | .apply on index argument uses =>
    match (r.find? on).bind fun q => q.steps[index]? with
    | none => (plain (.error .senseless), r, session)
    | some s =>
      let (report, session) := makeAndDrive
        (do s.apply (← (← argument.eval .empty).toEl t)) uses session
      (report.map .driven, r, session)
  | .build on start x finish uses =>
    match r.find? on with
    | none => (plain (.error .senseless), r, session)
    | some q =>
      let (report, session) := makeAndDrive
        (do q.build (← start.build .empty) fun u => do
          (← finish.eval (Env.empty.bind x u)).toEl t) uses session
      (report.map .driven, r.erase on, session)

/-- Performs operations in order. -/
def run (r : Recorder k t) (session : Session) :
    List (SequencerOp k t) → List (Report SequencerAnswer)
  | [] => []
  | op :: ops =>
    let (report, r, session) := step r session op
    report :: run r session ops

end Recorder

end Workflow.Script
