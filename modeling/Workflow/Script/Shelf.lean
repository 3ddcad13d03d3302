import Workflow.Script.Eval

/-!
# Shelves: sequences by name

A shelf holds sequences over one element type under names. *Makers* put a sequence under a name and
leave the sequences they use as they were; *readers* answer something about one. A maker that fails
leaves its target as it was.
-/

namespace Workflow.Script

/-- How to make a sequence from those on the shelf. -/
inductive Maker where
  | items (es : List Expr)
  | empty
  | singleton (e : Expr)
  | clone (on : String)
  | append (on other : String)
  /-- A value in front of a sequence. -/
  | prepend (e : Expr) (on : String)
  /-- The data in the lists that `e` gives for every element, called `x`, where `i` counts the
  elements before it. -/
  | flatMap (on : String) (e : Expr)
  | parse (text : String)

/-- What to read off a sequence. -/
inductive Reader where
  | length
  | isEmpty
  | elements
  | reversed
  | display
  | inspect
  | write
  /-- Whether it has the same elements as another sequence. -/
  | equals (other : String)

/-- An operation on a shelf. -/
inductive ShelfOp where
  | make (as : String) (maker : Maker)
  | read (on : String) (reader : Reader)

/-- What such an operation answers. -/
inductive ShelfAnswer where
  | made (elements : List Datum)
  | count (n : Nat)
  | truth (b : Bool)
  | elements (vs : List Datum)
  | text (s : String)
  /-- There is no such text. -/
  | missing
  deriving Repr

/-- Sequences under names. -/
abbrev Shelf (t : Ty) := Named (Sequence (El t))

namespace Shelf

variable {t : Ty}

/-- The sequence under a name. -/
def take (shelf : Shelf t) (name : String) : Act (Sequence (El t)) :=
  Act.ofOption (shelf.find? name)

/-- The sequence that a maker makes. -/
def make (shelf : Shelf t) : Maker → Act (Sequence (El t))
  | .items es => do return ⟨← Datum.toEls t (← Expr.evalAll es .empty)⟩
  | .empty => return .empty
  | .singleton e => do return .singleton (← (← e.eval .empty).toEl t)
  | .clone on => shelf.take on
  | .append on other => do
    let s ← shelf.take on
    return s.append (← shelf.take other)
  | .prepend e on => do
    let u ← (← e.eval .empty).toEl t
    return Sequence.append (.singleton u) (← shelf.take on)
  | .flatMap on e => do
    let s ← shelf.take on
    s.flatMapCounted fun i u => do
      let env := (Env.empty.bind "x" u).define "i" (.int (Int64.ofNat i))
      return ⟨← Datum.toEls t (← (← e.eval env).items)⟩
  | .parse text =>
    match Sequence.parse Json.format (El.codec t) text with
    | .ok s => return s
    | .error d => throw (.unreadable d)

/-- What a reader reads. -/
def read (shelf : Shelf t) (on : String) (reader : Reader) : Act ShelfAnswer := do
  let s ← shelf.take on
  match reader with
  | .length => return .count s.length
  | .isEmpty => return .truth s.isEmpty
  | .elements => return .elements (s.elements.map .ofEl)
  | .reversed => return .elements (s.elements.reverse.map .ofEl)
  | .display =>
    match El.display? t with
    | some show_ => return .text (s.display show_)
    | none => return .missing
  | .inspect => return .text (s.inspect El.inspect)
  | .write => return .text (Sequence.print Json.format (El.codec t) s)
  | .equals other => return .truth (s = (← shelf.take other))

/-- Performs one operation. -/
def step (shelf : Shelf t) (session : Session) :
    ShelfOp → Report ShelfAnswer × Shelf t × Session
  | .make as maker =>
    let (report, session) := session.perform (shelf.make maker)
    match report.result with
    | .error fault => (⟨.error fault, report.journal⟩, shelf, session)
    | .ok s => (⟨.ok (.made (s.elements.map .ofEl)), report.journal⟩, shelf.insert as s, session)
  | .read on reader =>
    let (report, session) := session.perform (shelf.read on reader)
    (report, shelf, session)

/-- Performs operations in order. -/
def run (shelf : Shelf t) (session : Session) : List ShelfOp → List (Report ShelfAnswer)
  | [] => []
  | op :: ops =>
    let (report, shelf, session) := step shelf session op
    report :: run shelf session ops

end Shelf

end Workflow.Script
