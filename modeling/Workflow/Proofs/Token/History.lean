import Mathlib.Data.List.Induction
import Workflow.Proofs.Token.Walk
import Workflow.Signal.Registry

/-!
# Sources and tokens over a history

A history is a list of operations that were performed one after the other. Two things are all that it
leaves behind in the token tree: which cells were made below which (`ParentIn`), and the cells of the
sources that were cancelled (`CancelledIn`). Both are read off the operations and off what the names
stood for when they were performed, not off the tree.

`Change` and `Turn` say once what an operation does. From them `Tracks` follows, operation by
operation: the flags and the parents in the tree are the ones that the history tells
(`tracks_run`).
-/

namespace Workflow.Signal

/-- The cell of a source or a token. -/
def Handle.cell? : Handle → Option Nat
  | source cell | token cell => some cell
  | never | constant _ | flag _ | script _ => none

namespace Registry

variable {r r' : Registry} {ops : List Op} {op : Op} {answer : Answer} {name other as : String}
  {id up cell : Nat}

/-! ## Handles -/

/-- The name stands for a source or a token with this cell. -/
def Observes (r : Registry) (name : String) (cell : Nat) : Prop :=
  ∃ handle, r.find? name = some handle ∧ handle.cell? = some cell

/-- What the signal would answer. -/
def answer? (r : Registry) (name : String) : Option Bool := (r.poll name).map Prod.fst

theorem find?_bind (handle : Handle) :
    (r.bind as handle).find? name = if name = as then some handle else r.find? name :=
  r.handles.find?_insert as name handle

theorem Observes.of_bind {handle : Handle} (h : (r.bind as handle).Observes name cell) :
    handle.cell? = some cell ∨ r.Observes name cell := by
  obtain ⟨handle', hname, hcell⟩ := h
  rw [find?_bind] at hname
  split at hname
  · cases hname
    exact .inl hcell
  · exact .inr ⟨handle', hname, hcell⟩

theorem Observes.of_erase (h : (r.erase as).Observes name cell) : r.Observes name cell := by
  obtain ⟨handle, hname, hcell⟩ := h
  change (r.handles.erase as).find? name = some handle at hname
  rw [Named.find?_erase] at hname
  split at hname
  · cases hname
  · exact ⟨handle, hname, hcell⟩

/-! ## What an operation does to the tree -/

/-- What becomes of the tree. -/
inductive Change where
  | idle
  | cancels (id : Nat)
  | grows (parent : Option Nat)

/-- What the operation does to the tree. -/
def change (r : Registry) : Op → Change
  | .source _ | .detached _ => .grows none
  | .child token _ =>
    match r.find? token with
    | some (.token up) => .grows (some up)
    | _ => .idle
  | .cancel name =>
    match r.find? name with
    | some (.source id) => .cancels id
    | _ => .idle
  | _ => .idle

theorem change_cancels_iff :
    r.change op = .cancels id ↔ ∃ name, op = .cancel name ∧ r.find? name = some (.source id) := by
  constructor
  · intro h
    unfold change at h
    split at h
    case h_4 name =>
      split at h
      · rename_i hname
        cases h
        exact ⟨name, rfl, hname⟩
      · cases h
    case h_3 =>
      split at h <;> cases h
    all_goals cases h
  · rintro ⟨name, rfl, hname⟩
    unfold change
    simp only [hname]

theorem change_grows_iff :
    r.change op = .grows (some up) ↔
      ∃ token as, op = .child token as ∧ r.find? token = some (.token up) := by
  constructor
  · intro h
    unfold change at h
    split at h
    case h_3 token as =>
      split at h
      · rename_i htoken
        cases h
        exact ⟨token, as, rfl, htoken⟩
      · cases h
    case h_4 =>
      split at h <;> cases h
    all_goals cases h
  · rintro ⟨token, as, rfl, htoken⟩
    unfold change
    simp only [htoken]

/-- What an operation makes of the registry, by what it does to the tree. -/
inductive Turn (r : Registry) : Change → Registry → Prop where
  | same : Turn r .idle r
  | erase (as : String) : Turn r .idle (r.erase as)
  | bind (as : String) {handle : Handle}
      (hcell : ∀ cell, handle.cell? = some cell → ∃ other, r.Observes other cell) :
      Turn r .idle (r.bind as handle)
  | cancel (id : Nat) : Turn r (.cancels id) { r with tree := r.tree.cancel id }
  | grow (as : String) (parent : Option Nat) {handle : Handle}
      (hcell : handle.cell? = some r.tree.size) :
      Turn r (.grows parent) { r.bind as handle with tree := r.tree.grow parent }

/-- A handle that is on no cell may be bound. -/
theorem Turn.bind_mute (as : String) {handle : Handle} (h : handle.cell? = none) :
    Turn r .idle (r.bind as handle) := by
  refine .bind as fun cell hcell => ?_
  rw [h] at hcell
  cases hcell

theorem turn_of_step (h : r.step op = some (answer, r')) : r.Turn (r.change op) r' := by
  cases op with
  | never as | constant _ as | flag _ as | script _ as =>
    cases h
    exact .bind_mute as rfl
  | source as | detached as =>
    cases h
    exact .grow as none rfl
  | drop as =>
    cases h
    exact .erase as
  | token target as | clone target as =>
    dsimp only [step] at h
    split at h
    · rename_i cell htarget
      cases h
      refine .bind as fun cell' hcell => ⟨target, _, htarget, hcell⟩
    · cases h
  | child target as =>
    dsimp only [step] at h
    split at h
    · rename_i up htarget
      cases h
      simp only [change, htarget]
      exact .grow as (some up) rfl
    · cases h
  | cancel target =>
    obtain ⟨r₁, hcancel, heq⟩ := Option.map_eq_some_iff.mp h
    cases heq
    unfold cancel at hcancel
    split at hcancel
    · rename_i id htarget
      cases hcancel
      simp only [change, htarget]
      exact .cancel id
    · rename_i value htarget
      cases hcancel
      simp only [change, htarget]
      exact .bind_mute target rfl
    · cases hcancel
  | set target value =>
    dsimp only [step] at h
    split at h
    · cases h
      exact .bind_mute target rfl
    · cases h
  | poll target =>
    obtain ⟨⟨b, r₁⟩, hpoll, heq⟩ := Option.map_eq_some_iff.mp h
    cases heq
    unfold poll at hpoll
    split at hpoll
    case h_1 => cases hpoll
    case h_9 =>
      -- a script moves on
      cases hpoll
      exact .bind_mute target rfl
    all_goals
      cases hpoll
      exact .same
  | inspect target =>
    obtain ⟨shown, -, heq⟩ := Option.map_eq_some_iff.mp h
    cases heq
    exact .same

namespace Turn

variable {change : Change}

theorem flagged_iff (h : r.Turn change r') (hcancel : ∀ id, change = .cancels id → id < r.tree.size) :
    r'.tree.Flagged id ↔ r.tree.Flagged id ∨ change = .cancels id := by
  cases h with
  | same | erase | bind => exact (or_iff_left nofun).symm
  | cancel id' =>
    refine (Token.Tree.flagged_cancel (hcancel id' rfl)).trans (or_congr Iff.rfl ?_)
    exact ⟨fun h => h ▸ rfl, fun h => by cases h; rfl⟩
  | grow as parent =>
    exact (Token.Tree.flagged_grow parent).trans (or_iff_left nofun).symm

theorem parent_iff (h : r.Turn change r') :
    r'.tree.Parent id up ↔ r.tree.Parent id up ∨ id = r.tree.size ∧ change = .grows (some up) := by
  cases h with
  | same | erase | bind => exact (or_iff_left nofun).symm
  | cancel id' => exact Token.Tree.parent_cancel.trans (or_iff_left nofun).symm
  | grow as parent =>
    refine (Token.Tree.parent_grow parent).trans (or_congr Iff.rfl (and_congr Iff.rfl ?_))
    exact ⟨fun h => h ▸ rfl, fun h => by cases h; rfl⟩

/-- Every handle is on a cell of the tree. -/
theorem bounded (h : r.Turn change r')
    (hbounded : ∀ ⦃name cell⦄, r.Observes name cell → cell < r.tree.size) ⦃name : String⦄ ⦃cell : Nat⦄
    (hcell : r'.Observes name cell) : cell < r'.tree.size := by
  cases h with
  | same => exact hbounded hcell
  | erase as => exact hbounded hcell.of_erase
  | bind as hhandle =>
    obtain hcell | hcell := hcell.of_bind
    · obtain ⟨other, hother⟩ := hhandle cell hcell
      exact hbounded hother
    · exact hbounded hcell
  | cancel id => exact Nat.lt_of_lt_of_eq (hbounded hcell) Token.Tree.size_cancel.symm
  | grow as parent hhandle =>
    refine Nat.lt_of_lt_of_eq ?_ (Token.Tree.size_grow parent).symm
    obtain hcell | hcell := Observes.of_bind hcell
    · rw [hhandle] at hcell
      cases hcell
      exact Nat.lt_succ_self _
    · exact Nat.lt_succ_of_lt (hbounded hcell)

theorem rooted (h : r.Turn change r') (hrooted : r.tree.Rooted)
    (hgrows : ∀ up, change = .grows (some up) → up < r.tree.size) : r'.tree.Rooted := by
  cases h with
  | same | erase | bind => exact hrooted
  | cancel id => exact hrooted.cancel
  | grow as parent => exact hrooted.grow fun up hup => hgrows up (hup ▸ rfl)

end Turn

/-! ## Histories -/

/-- Performs the operations in turn. -/
def run : Registry → List Op → Option Registry
  | r, [] => some r
  | r, op :: ops => (r.step op).bind fun (_, r') => r'.run ops

theorem run_append (front back : List Op) :
    r.run (front ++ back) = (r.run front).bind fun r' => r'.run back := by
  induction front generalizing r with
  | nil => rfl
  | cons op front ih =>
    show ((r.step op).bind fun x => x.2.run (front ++ back)) =
      ((r.step op).bind fun x => x.2.run front).bind fun r' => r'.run back
    rw [Option.bind_assoc]
    exact congrArg _ (funext fun x => ih)

/-- A history with one more operation. -/
theorem run_concat : r.run (ops ++ [op]) = some r' ↔
    ∃ r₁ answer, r.run ops = some r₁ ∧ r₁.step op = some (answer, r') := by
  rw [run_append]
  constructor
  · intro h
    obtain ⟨r₁, hrun, hlast⟩ := Option.bind_eq_some_iff.mp h
    obtain ⟨⟨answer, r₂⟩, hstep, hdone⟩ := Option.bind_eq_some_iff.mp hlast
    cases hdone
    exact ⟨r₁, answer, hrun, hstep⟩
  · rintro ⟨r₁, answer, hrun, hstep⟩
    rw [hrun]
    show (r₁.step op).bind _ = _
    rw [hstep]
    rfl

/-- The history performs `op`, on the registry `r`. -/
def Performed (ops : List Op) (op : Op) (r : Registry) : Prop :=
  ∃ before after, ops = before ++ op :: after ∧ empty.run before = some r

/-- The history cancels the source of the cell `id`. -/
def CancelledIn (ops : List Op) (id : Nat) : Prop :=
  ∃ name r, Performed ops (.cancel name) r ∧ r.find? name = some (.source id)

/-- The history makes the cell `id` as a child of a token of the cell `up`. -/
def ParentIn (ops : List Op) (id up : Nat) : Prop :=
  ∃ token as r, Performed ops (.child token as) r ∧ r.find? token = some (.token up) ∧
    r.tree.size = id

/-- `up` is `id`, or it is on the chain of the parents of `id`. -/
abbrev Above (ops : List Op) : Nat → Nat → Prop := Relation.ReflTransGen (ParentIn ops)

theorem Performed.append (h : Performed ops op r) (more : List Op) :
    Performed (ops ++ more) op r := by
  obtain ⟨before, after, rfl, hrun⟩ := h
  exact ⟨before, after ++ more, by simp, hrun⟩

theorem performed_concat {op' : Op} :
    Performed (ops ++ [op]) op' r ↔ Performed ops op' r ∨ op' = op ∧ empty.run ops = some r := by
  constructor
  · rintro ⟨before, after, hops, hrun⟩
    obtain rfl | ⟨after, last, rfl⟩ := after.eq_nil_or_concat
    · obtain ⟨rfl, hlast⟩ := List.append_inj' hops rfl
      cases hlast
      exact .inr ⟨rfl, hrun⟩
    · rw [List.concat_eq_append, ← List.cons_append, ← List.append_assoc] at hops
      obtain ⟨rfl, -⟩ := List.append_inj' hops rfl
      exact .inl ⟨before, after, rfl, hrun⟩
  · rintro (h | ⟨rfl, hrun⟩)
    · exact h.append [op]
    · exact ⟨ops, [], rfl, hrun⟩

theorem cancelledIn_concat (hrun : empty.run ops = some r) :
    CancelledIn (ops ++ [op]) id ↔ CancelledIn ops id ∨ r.change op = .cancels id := by
  rw [change_cancels_iff]
  constructor
  · rintro ⟨name, r₁, hperformed, hname⟩
    obtain hperformed | ⟨rfl, hrun₁⟩ := performed_concat.mp hperformed
    · exact .inl ⟨name, r₁, hperformed, hname⟩
    · cases hrun.symm.trans hrun₁
      exact .inr ⟨name, rfl, hname⟩
  · rintro (⟨name, r₁, hperformed, hname⟩ | ⟨name, rfl, hname⟩)
    · exact ⟨name, r₁, hperformed.append _, hname⟩
    · exact ⟨name, r, performed_concat.mpr (.inr ⟨rfl, hrun⟩), hname⟩

theorem parentIn_concat (hrun : empty.run ops = some r) :
    ParentIn (ops ++ [op]) id up ↔
      ParentIn ops id up ∨ id = r.tree.size ∧ r.change op = .grows (some up) := by
  rw [change_grows_iff]
  constructor
  · rintro ⟨token, as, r₁, hperformed, htoken, hid⟩
    obtain hperformed | ⟨rfl, hrun₁⟩ := performed_concat.mp hperformed
    · exact .inl ⟨token, as, r₁, hperformed, htoken, hid⟩
    · cases hrun.symm.trans hrun₁
      exact .inr ⟨hid.symm, token, as, rfl, htoken⟩
  · rintro (⟨token, as, r₁, hperformed, htoken, hid⟩ | ⟨rfl, token, as, rfl, htoken⟩)
    · exact ⟨token, as, r₁, hperformed.append _, htoken, hid⟩
    · exact ⟨token, as, r, performed_concat.mpr (.inr ⟨rfl, hrun⟩), htoken, rfl⟩

/-! ## The tree keeps track of the history -/

/-- The tree is what the history tells, and the handles are on its cells. -/
structure Tracks (ops : List Op) (r : Registry) : Prop where
  rooted : r.tree.Rooted
  bounded : ∀ ⦃name cell⦄, r.Observes name cell → cell < r.tree.size
  flagged : ∀ id, r.tree.Flagged id ↔ CancelledIn ops id
  parent : ∀ id up, r.tree.Parent id up ↔ ParentIn ops id up

theorem not_performed_nil : ¬ Performed [] op r := by
  rintro ⟨before, after, hops, -⟩
  cases before <;> cases hops

theorem tracks_empty : Tracks [] empty where
  rooted := Token.Tree.rooted_empty
  bounded := by
    rintro name cell ⟨handle, hname, -⟩
    cases hname
  flagged id := by
    constructor
    · rintro ⟨cell, hcell, -⟩
      cases hcell
    · rintro ⟨name, r, hperformed, -⟩
      exact absurd hperformed not_performed_nil
  parent id up := by
    constructor
    · rintro ⟨cell, hcell, -⟩
      cases hcell
    · rintro ⟨token, as, r, hperformed, -⟩
      exact absurd hperformed not_performed_nil

/-- **The step.** One more operation does to the tree what it adds to the history. -/
theorem Tracks.step (h : Tracks ops r) (hrun : empty.run ops = some r)
    (hstep : r.step op = some (answer, r')) : Tracks (ops ++ [op]) r' := by
  have hturn := turn_of_step hstep
  have hcancels (id : Nat) (hid : r.change op = .cancels id) : id < r.tree.size := by
    obtain ⟨name, -, hname⟩ := change_cancels_iff.mp hid
    exact h.bounded ⟨_, hname, rfl⟩
  have hgrows (up : Nat) (hup : r.change op = .grows (some up)) : up < r.tree.size := by
    obtain ⟨token, as, -, htoken⟩ := change_grows_iff.mp hup
    exact h.bounded ⟨_, htoken, rfl⟩
  constructor
  case rooted => exact hturn.rooted h.rooted hgrows
  case bounded => exact hturn.bounded h.bounded
  case flagged =>
    intro id
    rw [hturn.flagged_iff hcancels, h.flagged, cancelledIn_concat hrun]
  case parent =>
    intro id up
    rw [hturn.parent_iff, h.parent, parentIn_concat hrun]

/-- **Every history.** -/
theorem tracks_run (hrun : empty.run ops = some r) : Tracks ops r := by
  induction ops using List.reverseRecOn generalizing r with
  | nil =>
    cases hrun
    exact tracks_empty
  | append_singleton ops op ih =>
    obtain ⟨r₁, answer, hrun₁, hstep⟩ := run_concat.mp hrun
    exact (ih hrun₁).step hrun₁ hstep

end Registry

end Workflow.Signal
