import Workflow.Cancellable
import Workflow.Optional
import Workflow.Script.Session
import Workflow.State

/-!
# Kinds: the four builders of scripts

A script names the builder it uses by a `Kind`; `builder` is the builder itself, over the script's
elements and in its sessions.
-/

namespace Workflow.Script

/-- The builders, by name; a state builder also names the type of its state. -/
inductive Kind where
  | optional
  | sequence
  | state (s : Ty)
  | cancellable
  deriving DecidableEq, Repr

/-- The builder of a kind. -/
abbrev builder : Kind → Builder Act El
  | .optional => .optional Act El
  | .sequence => .sequence Act El
  | .state s => .state Act (El s) El
  | .cancellable => .cancellable Act El

/-- A computation of a kind. -/
abbrev Comp (k : Kind) (t : Ty) : Type := (builder k).Comp t

/-- The name of an element type where a builder shows it. -/
def Ty.name : Ty → String
  | .unit => "()"
  | .bool => "bool"
  | .int => "i64"
  | .int32 => "i32"
  | .text => "alloc::string::String"
  | .pair => "(i64, i64)"
  | .list => "alloc::vec::Vec<i64>"
  | .option => "core::option::Option<i64>"
  | .sequence => "Sequence<i64>"

namespace Kind

/-- The builder for inspection. -/
def inspect (k : Kind) : String :=
  match k with
  | state s => (builder k).name ++ "<" ++ s.name ++ ">"
  | _ => (builder k).name

end Kind

end Workflow.Script
