import Workflow.Text.Inspect

/-!
# The token tree

Every cancellation source owns one cell: a flag, and the cell above it if the source was made as the
child of a token. Tokens and sources are handles on cells, so they are named by the cell's number,
the count of the cells that were there before it. A cell's parent is always older than the cell:
walking up the tree is walking down the list of cells, newest first, and hence ends.

A cell counts as cancelled when its own flag or the flag of one of its ancestors is set.
-/

namespace Workflow.Token

/-- A source's flag, and the cell above it.
mirrors effect/cancellation:73-76 (`CancellationState`) -/
structure Cell where
  flag : Bool
  parent : Option Nat
  deriving DecidableEq, Repr

/-- All cells, newest first. -/
structure Tree where
  cells : List Cell
  deriving DecidableEq, Repr

namespace Tree

/-- No cells yet. -/
def empty : Tree := ⟨[]⟩

/-- The number of the cell that is made next. -/
def size (tree : Tree) : Nat := tree.cells.length

/-- Makes a cell, with its flag down.
mirrors effect/cancellation:89-96 (`with_parent`) -/
def grow (tree : Tree) (parent : Option Nat) : Tree := ⟨⟨false, parent⟩ :: tree.cells⟩

/-- Whether the flag of the cell numbered `id`, or of one of its ancestors, is set.
mirrors effect/cancellation:105-113 (`is_cancelled`) -/
def cancelledIn : List Cell → Nat → Bool
  | [], _ => false
  | cell :: older, id =>
    if id = older.length then cell.flag || cell.parent.any fun up => cancelledIn older up
    else cancelledIn older id

def isCancelled (tree : Tree) (id : Nat) : Bool := cancelledIn tree.cells id

/-- Sets the flag of the cell numbered `id`.
mirrors effect/cancellation:158-160 (`cancel`) -/
def cancelIn : List Cell → Nat → List Cell
  | [], _ => []
  | cell :: older, id =>
    if id = older.length then { cell with flag := true } :: older else cell :: cancelIn older id

def cancel (tree : Tree) (id : Nat) : Tree := ⟨cancelIn tree.cells id⟩

/-- A token for inspection, with its whole lineage.
mirrors effect/cancellation:72-86, as derived -/
def inspectIn : List Cell → Nat → String
  | [], _ => ""
  | cell :: older, id =>
    if id = older.length then
      let parent := match cell.parent with
        | none => "None"
        | some up => Text.applied "Some" [inspectIn older up]
      Text.record "CancellationToken"
        [("state", Text.record "CancellationState"
          [("cancelled", toString cell.flag), ("parent", parent)])]
    else inspectIn older id

def inspect (tree : Tree) (id : Nat) : String := inspectIn tree.cells id

end Tree

end Workflow.Token
