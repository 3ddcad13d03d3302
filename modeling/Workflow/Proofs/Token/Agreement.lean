import Workflow.Proofs.Token.Walk

/-!
# Trees that agree above a cell

The walk from a cell looks at the flags of the cell and of those above it, and at nothing else. So
if two trees have the same cells with the same parents, and if the flags that can be seen from a cell
are the same in both (`AgreeAbove`), the cell answers the same in both, whatever the other flags
are.

Cancelling any one cell in both trees keeps their agreement (`AgreeAbove.cancel`), and so does
cancelling any list of cells (`AgreeAbove.cancelAll`).
-/

namespace Workflow.Token.Tree

open Relation

variable {tree tree' : Tree} {cell id other up : Nat}

/-- Two trees with the same cells and the same parents, in which the flags of `cell` and of the
cells above it are the same. The flags of all other cells may differ. -/
structure AgreeAbove (cell : Nat) (tree tree' : Tree) : Prop where
  size : tree.size = tree'.size
  parent : ∀ id up, tree.Parent id up ↔ tree'.Parent id up
  flagged : ∀ up, ReflTransGen tree.Parent cell up → (tree.Flagged up ↔ tree'.Flagged up)

/-- Cancels the cells, one after the other. -/
def cancelAll (tree : Tree) (ids : List Nat) : Tree := ids.foldl cancel tree

theorem cancelAll_concat (ids : List Nat) :
    tree.cancelAll (ids ++ [id]) = (tree.cancelAll ids).cancel id := by
  simp [cancelAll]

/-- After cancelling a cell its flag is set, if there is such a cell, and the other flags are as
they were. -/
theorem flagged_cancel_iff :
    (tree.cancel id).Flagged other ↔ tree.Flagged other ∨ other = id ∧ id < tree.size := by
  by_cases hid : id < tree.size
  · rw [flagged_cancel hid, and_iff_left hid]
  · have hnone : tree.cell? id = none := by
      cases hcell : tree.cell? id with
      | none => rfl
      | some cell => exact absurd (lt_size_of_cell? hcell) hid
    have hcell : (tree.cancel id).cell? other = tree.cell? other := by
      rw [cell?_cancel]
      split
      · rename_i hother
        rw [hother, hnone]
        rfl
      · rfl
    simp [Flagged, hcell, hid]

theorem Rooted.cancelAll (h : tree.Rooted) (ids : List Nat) : (tree.cancelAll ids).Rooted := by
  induction ids generalizing tree with
  | nil => exact h
  | cons id ids ih => exact ih h.cancel

theorem size_cancelAll (ids : List Nat) : (tree.cancelAll ids).size = tree.size := by
  induction ids generalizing tree with
  | nil => rfl
  | cons id ids ih => exact ih.trans size_cancel

theorem Rooted.le_above (h : tree.Rooted) (hup : ReflTransGen tree.Parent cell up) : up ≤ cell := by
  induction hup with
  | refl => exact Nat.le_refl cell
  | tail _ hparent ih => exact Nat.le_trans (Nat.le_of_lt (h hparent)) ih

namespace AgreeAbove

/-- Cancelling a cell that is not above parts nothing that can be seen. -/
theorem cancel_elsewhere (hid : ¬ ReflTransGen tree.Parent cell id) :
    AgreeAbove cell tree (tree.cancel id) where
  size := size_cancel.symm
  parent _ _ := parent_cancel.symm
  flagged up hup := by
    rw [flagged_cancel_iff]
    refine (or_iff_left ?_).symm
    rintro ⟨rfl, -⟩
    exact hid hup

/-- What is cancelled in both trees does not part them. -/
theorem cancel (h : AgreeAbove cell tree tree') (id : Nat) :
    AgreeAbove cell (tree.cancel id) (tree'.cancel id) where
  size := by rw [size_cancel, size_cancel, h.size]
  parent id' up := by rw [parent_cancel, parent_cancel, h.parent]
  flagged up hup := by
    have hparent : (tree.cancel id).Parent = tree.Parent :=
      funext₂ fun _ _ => propext parent_cancel
    rw [hparent] at hup
    rw [flagged_cancel_iff, flagged_cancel_iff, h.flagged up hup, h.size]

theorem cancelAll (h : AgreeAbove cell tree tree') (ids : List Nat) :
    AgreeAbove cell (tree.cancelAll ids) (tree'.cancelAll ids) := by
  induction ids generalizing tree tree' with
  | nil => exact h
  | cons id ids ih => exact ih (h.cancel id)

/-- **The cell answers the same in both trees.** -/
theorem isCancelled_eq (h : AgreeAbove cell tree tree') (hrooted : tree.Rooted)
    (hrooted' : tree'.Rooted) (hcell : cell < tree.size) :
    tree.isCancelled cell = tree'.isCancelled cell := by
  have hparent : tree.Parent = tree'.Parent := funext₂ fun id up => propext (h.parent id up)
  refine Bool.eq_iff_iff.mpr ?_
  rw [isCancelled_iff hrooted hcell, isCancelled_iff hrooted' (h.size ▸ hcell), ← hparent]
  exact exists_congr fun up => and_congr_right fun hup => h.flagged up hup

end AgreeAbove

end Workflow.Token.Tree
