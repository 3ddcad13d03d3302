import Workflow.Named
import Workflow.Token.Tree

/-!
# Signals by name

A registry holds the signals that a program has made, each under a name, together with the token
tree that its sources and tokens share. `step` performs one operation: it makes a signal under a
name (replacing what had that name), changes one, asks one, or forgets a name; it refuses to change
or ask what a name that is not bound stands for, or a signal of another sort.
-/

namespace Workflow.Signal

/-- What a name stands for. -/
inductive Handle where
  /-- The signal that never requests anything. -/
  | never
  /-- A constant answer. -/
  | constant (answer : Bool)
  /-- A flag that can be set and cleared. -/
  | flag (value : Bool)
  /-- The owner of a cell of the token tree. -/
  | source (cell : Nat)
  /-- An observer of a cell of the token tree. -/
  | token (cell : Nat)
  /-- Answers that are given in turn; the last one is repeated. -/
  | script (answers : List Bool)
  deriving DecidableEq, Repr

/-- The signals in use. -/
structure Registry where
  handles : Named Handle
  tree : Token.Tree
  deriving DecidableEq, Repr

/-- An operation on signals; `as` is the name that a new signal gets. -/
inductive Op where
  | never (as : String)
  | constant (answer : Bool) (as : String)
  | flag (value : Bool) (as : String)
  /-- A new root source. -/
  | source (as : String)
  /-- A token that no source can reach. -/
  | detached (as : String)
  /-- A token of a source. -/
  | token (source as : String)
  /-- A new source below a token. -/
  | child (token as : String)
  /-- A second handle on a token. -/
  | clone (token as : String)
  | script (answers : List Bool) (as : String)
  /-- Cancels a source, or raises a flag. -/
  | cancel (name : String)
  /-- Sets or clears a flag. -/
  | set (name : String) (value : Bool)
  /-- Forgets a name, if it stands for something. -/
  | drop (name : String)
  /-- Asks a signal. -/
  | poll (name : String)
  /-- Shows a signal for inspection. -/
  | inspect (name : String)
  deriving DecidableEq, Repr

/-- What an operation answers. -/
inductive Answer where
  | done
  | requested (answer : Bool)
  | text (shown : String)
  deriving DecidableEq, Repr

namespace Registry

/-- No signals. -/
def empty : Registry := ⟨.empty, .empty⟩

def find? (r : Registry) (name : String) : Option Handle := r.handles.find? name

/-- Binds a name. -/
def bind (r : Registry) (name : String) (handle : Handle) : Registry :=
  { r with handles := r.handles.insert name handle }

/-- Forgets a name; the cells of the tree stay. -/
def erase (r : Registry) (name : String) : Registry :=
  { r with handles := r.handles.erase name }

/-- Binds a name to the owner of a new cell below `parent`.
mirrors effect/cancellation:144-149 (`new`) and 116-121 (`child`) -/
def bindSource (r : Registry) (name : String) (parent : Option Nat) : Registry :=
  { r.bind name (.source r.tree.size) with tree := r.tree.grow parent }

/-- Asks a signal. A script moves on to its next answer.
mirrors effect/cancellation:32-70,105-113,130-134,174-178, one sort of signal after the other -/
def poll (r : Registry) (name : String) : Option (Bool × Registry) :=
  match r.find? name with
  | none => none
  | some .never => some (false, r)
  | some (.constant answer) => some (answer, r)
  | some (.flag value) => some (value, r)
  | some (.source cell) => some (r.tree.isCancelled cell, r)
  | some (.token cell) => some (r.tree.isCancelled cell, r)
  | some (.script []) => some (false, r)
  | some (.script [answer]) => some (answer, r)
  | some (.script (answer :: rest)) => some (answer, r.bind name (.script rest))

/-- Cancels a source, or raises a flag.
mirrors effect/cancellation:158-160 (`cancel`) -/
def cancel (r : Registry) (name : String) : Option Registry :=
  match r.find? name with
  | some (.source cell) => some { r with tree := r.tree.cancel cell }
  | some (.flag _) => some (r.bind name (.flag true))
  | _ => none

/-- Shows a signal for inspection. -/
def inspect (r : Registry) (name : String) : Option String :=
  match r.find? name with
  | some .never => some "NeverCancelled"
  | some (.token cell) => some (r.tree.inspect cell)
  | some (.source cell) => some (Text.record "CancellationSource" [("token", r.tree.inspect cell)])
  | _ => none

/-- What every signal would answer, scripts apart. -/
def states (r : Registry) : List (String × Bool) :=
  r.handles.entries.filterMap fun (name, handle) =>
    match handle with
    | .never => some (name, false)
    | .constant answer => some (name, answer)
    | .flag value => some (name, value)
    | .source cell => some (name, r.tree.isCancelled cell)
    | .token cell => some (name, r.tree.isCancelled cell)
    | .script _ => none

/-- Performs one operation. -/
def step (r : Registry) : Op → Option (Answer × Registry)
  | .never as => some (.done, r.bind as .never)
  | .constant answer as => some (.done, r.bind as (.constant answer))
  | .flag value as => some (.done, r.bind as (.flag value))
  | .source as => some (.done, r.bindSource as none)
  | .detached as =>
    some (.done, { r.bind as (.token r.tree.size) with tree := r.tree.grow none })
  | .token source as =>
    match r.find? source with
    | some (.source cell) => some (.done, r.bind as (.token cell))
    | _ => none
  | .child token as =>
    match r.find? token with
    | some (.token cell) => some (.done, r.bindSource as (some cell))
    | _ => none
  | .clone token as =>
    match r.find? token with
    | some (.token cell) => some (.done, r.bind as (.token cell))
    | _ => none
  | .script answers as => some (.done, r.bind as (.script answers))
  | .cancel name => (r.cancel name).map fun r => (.done, r)
  | .set name value =>
    match r.find? name with
    | some (.flag _) => some (.done, r.bind name (.flag value))
    | _ => none
  | .drop name => some (.done, r.erase name)
  | .poll name => (r.poll name).map fun (answer, r) => (.requested answer, r)
  | .inspect name => (r.inspect name).map fun shown => (.text shown, r)

end Registry

end Workflow.Signal
