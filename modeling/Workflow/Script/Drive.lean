import Workflow.Script.Eval

/-!
# Driving: what becomes of a finished computation

An optional value and a sequence are their own results. A state transformer and a task are run, as
often as is asked, and every run is reported on its own: one that fails does not keep the next from
being run. Between the runs of a task signals may be changed and asked, and the session goes on, so
a later run meets the world that the earlier ones left.
-/

namespace Workflow.Script

/-- Where a state transformer starts. -/
inductive Start where
  | given (e : Expr)
  /-- The state that the last successful full run left, or the default before there is one. -/
  | fed

/-- What is wanted of a state transformer. -/
inductive View where
  | full | value | state
  deriving DecidableEq, Repr

/-- One use of a computation. -/
inductive Use where
  | state (start : Start) (view : View)
  | task (signal : String)
  | uncancelled
  | signal (op : Signal.Op)

/-- What a use came to. -/
inductive Outcome where
  | full (value state : Datum)
  | value (v : Datum)
  | state (s : Datum)
  | ending (e : Ending Datum)
  | signal (answer : Signal.Answer)
  deriving Repr

/-- What a computation came to. -/
inductive Driven where
  | present (v : Datum)
  | absent
  | elements (vs : List Datum)
  | uses (reports : List (Report Outcome))

/-- Runs a state transformer, and answers also the state to feed to later runs. -/
def useState {s t : Ty} (c : State Act (El s) (El t)) (fed : El s) : Use → Act (Outcome × El s)
  | .state start view => do
    let initial ← match start with
      | .given e => do (← e.eval .empty).toEl s
      | .fed => pure fed
    match view with
    | .full => do
      let (v, final) ← c.run initial
      return (.full (.ofEl v) (.ofEl final), final)
    | .value => return (.value (.ofEl (← c.eval initial)), fed)
    | .state => return (.state (.ofEl (← c.exec initial)), fed)
  | .signal op => return (.signal (← Act.signal op), fed)
  | .task _ | .uncancelled => throw .senseless

/-- Runs a task. -/
def useTask {t : Ty} (c : Cancellable Act (El t)) : Use → Act Outcome
  | .task signal => do
    let ending ← c.run (Act.watch signal)
    return .ending ⟨.ofEl ending.value, ending.cancelled⟩
  | .uncancelled => do
    let ending ← c.runUncancelled
    return .ending ⟨.ofEl ending.value, ending.cancelled⟩
  | .signal op => .signal <$> Act.signal op
  | .state _ _ => throw .senseless

/-- Uses a state transformer again and again. -/
def useStateAll {s t : Ty} (c : State Act (El s) (El t)) (fed : El s) :
    List Use → Session → List (Report Outcome) × Session
  | [], session => ([], session)
  | use :: uses, session =>
    let (report, session) := session.perform (useState c fed use)
    let fed := match report.result with
      | .ok (_, fed) => fed
      | .error _ => fed
    let (reports, session) := useStateAll c fed uses session
    (report.map Prod.fst :: reports, session)

/-- What a finished computation comes to. -/
def drive : {k : Kind} → {t : Ty} → Comp k t → List Use → Session → Driven × Session
  | .optional, _, none, _, session => (.absent, session)
  | .optional, _, some u, _, session => (.present (.ofEl u), session)
  | .sequence, _, s, _, session => (.elements (s.elements.map Datum.ofEl), session)
  | .state _, _, c, uses, session =>
    let (reports, session) := useStateAll c default uses session
    (.uses reports, session)
  | .cancellable, _, c, uses, session =>
    let (reports, session) := session.performAll (uses.map (useTask c))
    (.uses reports, session)

/-- Makes a computation and drives it. The report's journal is that of the making. -/
def makeAndDrive {k : Kind} {t : Ty} (make : Act (Comp k t)) (uses : List Use) (session : Session) :
    Report Driven × Session :=
  let (report, session) := session.perform make
  match report.result with
  | .error fault => (⟨.error fault, report.journal⟩, session)
  | .ok c =>
    let (driven, session) := drive c uses session
    (⟨.ok driven, report.journal⟩, session)

/-- A finished computation for inspection, and for people where it has such a text. -/
def texts : {k : Kind} → {t : Ty} → Comp k t → String × Option String
  | .optional, _, none => ("None", none)
  | .optional, _, some u => (Text.applied "Some" [El.inspect u], none)
  | .sequence, t, s =>
    (Sequence.inspect El.inspect s, (El.display? t).map fun show_ => Sequence.display show_ s)
  | .state _, _, _ => ("State(<function>)", some "<State>")
  | .cancellable, _, _ => ("Cancellable(<function>)", some "<Cancellable>")

end Workflow.Script
