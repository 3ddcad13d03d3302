import Workflow.Proofs.Chronicle.Abreast
import Workflow.Proofs.Direct.Settled
import Workflow.Proofs.Signal.Lasting
import Workflow.Proofs.TaskTree
import Workflow.Proofs.Token.Agreement
import Workflow.Proofs.Token.History
import Workflow.Script.Kind
import Workflow.Script.Session

/-!
# Sources that a token does not observe

A task that is run under a token finds out about the sources on the token's way up and about no
others. In a `World` the store of tokens stands beside a part that user code has to itself: there it
logs, counts and panics as it likes. User code is `Discreet` if that and cancelling sources, any
sources, is all that it does; a leaf's own function may also ask the signal that it is handed.

Two stores with the same tree may differ in the flags of cells that are neither the token's own nor
above it. Runs from there keep abreast: they cancel the same cells in the same order, so what agreed
at the beginning agrees all the time (`World.Alike`), and hence every look gets the same answer. The
induction is over the task tree, and `Discreet.abreast` is what it needs of user code. The result is
`unrelated_sources_unseen`.
-/

namespace Workflow

open Token

variable {ε V α β : Type}

/-- A world with a store of tokens. The rest of it is user code's own. -/
structure World (V : Type) where
  own : V
  store : Tree

namespace World

/-- An act of user code in its own part of the world. -/
def privately (act : EStateM ε V α) : EStateM ε (World V) α := fun w =>
  match act w.own with
  | .ok a v => .ok a { w with own := v }
  | .error e v => .error e { w with own := v }

/-- Cancels the source of a cell. -/
def cancelling (id : Nat) : EStateM ε (World V) Unit := fun w =>
  .ok () { w with store := w.store.cancel id }

/-- The token of a cell. -/
def token (cell : Nat) : Signal (EStateM ε (World V)) :=
  .reading fun w => w.store.isCancelled cell

/-- Reports go to where user code keeps its things. -/
instance [Reports (EStateM ε V)] : Reports (EStateM ε (World V)) := ⟨fun n => privately (report n)⟩

/-- User code that asks no signal but the one that it is handed, if any. -/
inductive Discreet (handed : Option (Signal (EStateM ε (World V)))) :
    {α : Type} → EStateM ε (World V) α → Prop where
  /-- It does what it likes with what is its own, and panics if it likes. -/
  | privately {α : Type} (act : EStateM ε V α) : Discreet handed (privately act)
  /-- It cancels a source. -/
  | cancelling (id : Nat) : Discreet handed (cancelling id)
  /-- It asks the signal that it is handed. -/
  | asking {signal : Signal (EStateM ε (World V))} (h : handed = some signal) :
    Discreet handed signal.poll
  /-- It does one thing after the other. -/
  | bind {α β : Type} {x : EStateM ε (World V) α} {f : α → EStateM ε (World V) β}
    (hx : Discreet handed x) (hf : ∀ a, Discreet handed (f a)) : Discreet handed (x >>= f)

/-- What became of `tree` in the one world became of `tree'` in the other: the same cells were
cancelled. All else is the same. -/
structure Alike (tree tree' : Tree) (w w' : World V) : Prop where
  own : w.own = w'.own
  store : ∃ ids, w.store = tree.cancelAll ids ∧ w'.store = tree'.cancelAll ids

section
variable {tree tree' : Tree} {cell : Nat}

theorem alike_start (v : V) (tree tree' : Tree) : Alike tree tree' ⟨v, tree⟩ ⟨v, tree'⟩ :=
  ⟨rfl, [], rfl, rfl⟩

theorem Alike.agreeAbove {w w' : World V} (h : Alike tree tree' w w')
    (hagree : tree.AgreeAbove cell tree') : w.store.AgreeAbove cell w'.store := by
  obtain ⟨ids, hstore, hstore'⟩ := h.store
  rw [hstore, hstore']
  exact hagree.cancelAll ids

theorem abreast_privately (act : EStateM ε V α) :
    Abreast (Alike tree tree') (privately act) fun _ => True := by
  refine .of_ends fun w w' hw => ?_
  unfold privately
  rw [← hw.own]
  cases act w.own with
  | ok a v => exact .ok a ⟨rfl, hw.store⟩
  | error e v => exact .error e ⟨rfl, hw.store⟩

/-- **The step.** A source is cancelled in both worlds. -/
theorem abreast_cancelling (id : Nat) :
    Abreast (Alike tree tree') (cancelling id : EStateM ε (World V) Unit) fun _ => True := by
  refine .of_ends fun w w' hw => .ok () ⟨hw.own, ?_⟩
  obtain ⟨ids, hstore, hstore'⟩ := hw.store
  refine ⟨ids ++ [id], ?_, ?_⟩
  · rw [Tree.cancelAll_concat, ← hstore]
  · rw [Tree.cancelAll_concat, ← hstore']

theorem abreast_token (hagree : tree.AgreeAbove cell tree') (hrooted : tree.Rooted)
    (hrooted' : tree'.Rooted) (hcell : cell < tree.size) :
    Abreast (Alike tree tree') (token cell : Signal (EStateM ε (World V))).poll fun _ => True := by
  refine .of_ends fun w w' hw => ?_
  have hanswer : w.store.isCancelled cell = w'.store.isCancelled cell := by
    obtain ⟨ids, hstore, hstore'⟩ := hw.store
    refine (hw.agreeAbove hagree).isCancelled_eq ?_ ?_ ?_
    · rw [hstore]
      exact hrooted.cancelAll ids
    · rw [hstore']
      exact hrooted'.cancelAll ids
    · rw [hstore, Tree.size_cancelAll]
      exact hcell
  show SameEnd _ (.ok (w.store.isCancelled cell) w) (.ok (w'.store.isCancelled cell) w')
  rw [hanswer]
  exact .ok _ hw

/-- The token as a signal whose every answer is observed: user code learns it as it is given. -/
def observed (cell : Nat) (observe : Bool → EStateM ε V Unit) : Signal (EStateM ε (World V)) :=
  (token cell).watched fun answer => privately (observe answer)

theorem undivided_observed [Reports (EStateM ε V)] (hagree : tree.AgreeAbove cell tree')
    (hrooted : tree.Rooted) (hrooted' : tree'.Rooted) (hcell : cell < tree.size)
    (observe : Bool → EStateM ε V Unit) :
    Undivided (Alike tree tree') (observed cell observe) where
  poll := (abreast_token hagree hrooted hrooted' hcell).bind fun answer _ =>
    (abreast_privately (observe answer)).bind fun _ _ => .pure trivial
  report n := abreast_privately (report n)

/-- Discreet user code cannot tell the two worlds apart. -/
theorem Discreet.abreast {handed : Option (Signal (EStateM ε (World V)))}
    {act : EStateM ε (World V) α} (h : Discreet handed act)
    (hpoll : ∀ signal, handed = some signal →
      Abreast (Alike tree tree') signal.poll fun _ => True) :
    Abreast (Alike tree tree') act fun _ => True := by
  induction h with
  | privately act => exact abreast_privately act
  | cancelling id => exact abreast_cancelling id
  | asking h => exact hpoll _ h
  | bind _ _ ihx ihf => exact ihx.bind fun a _ => ihf a

end

end World

namespace TaskTree

open World

variable {ι : Type} {El : ι → Type} {t : ι}

/-- All user code of the tree is discreet; only a leaf's own function is handed a signal. -/
def Discreet : {t : ι} → TaskTree ε (World V) El t → Prop
  | _, .pure _ | _, .zero => True
  | _, .delay _ work => World.Discreet none work
  | _, .own _ f => ∀ signal, World.Discreet (some signal) (f signal)
  | _, .bind c _ k next => c.Discreet ∧ (∀ u, World.Discreet none (k u)) ∧ ∀ x, (next x).Discreet
  | _, .map c _ f => c.Discreet ∧ ∀ u, World.Discreet none (f u)
  | _, .andThen first second => first.Discreet ∧ second.Discreet
  | _, .sequencer steps next start _ finish =>
    (∀ step ∈ steps, ∀ u, World.Discreet none (step.2 u)) ∧ (∀ x, (next x).Discreet) ∧
      start.Discreet ∧ ∀ u, World.Discreet none (finish u)

variable {tree tree' : Tree}

theorem abreast_calling (closure : Nat) {act : EStateM ε (World V) α}
    (h : World.Discreet none act) :
    Abreast (Chronicle.Alike (Alike tree tree')) (Setting.chronicled.call closure act)
      fun _ => True :=
  (h.abreast nofun).calling closure

variable [DecidableEq ι] [∀ t, Inhabited (El t)] [Reports (EStateM ε V)]
  {signal : Signal (EStateM ε (World V))}

theorem continuation_abreast (hlib : Undivided (Alike tree tree') signal) {κ : Type}
    {next : κ → Chronicled ε (World V) (Cancellable (Chronicled ε (World V)) (El t))}
    (hnext : ∀ x, Abreast (Chronicle.Alike (Alike tree tree')) (next x)
      (Cancellable.KeepsAbreast (Alike tree tree') signal)) (closure : Nat)
    {finish : El t → EStateM ε (World V) (El t)} (hfinish : ∀ u, World.Discreet none (finish u))
    (steps : List (Nat × (El t → EStateM ε (World V) κ)))
    (hsteps : ∀ step ∈ steps, ∀ u, World.Discreet none (step.2 u)) (u : El t) :
    Abreast (Chronicle.Alike (Alike tree tree'))
      ((⟨steps.map (record .chronicled next)⟩ :
        Sequencer (Builder.cancellable _ El) t).continuation
          (fun u => Setting.chronicled.call closure (finish u)) u)
      (Cancellable.KeepsAbreast (Alike tree tree') signal) := by
  induction steps generalizing u with
  | nil => exact (abreast_calling closure (hfinish u)).map fun v _ => .ofValue v
  | cons step steps ih =>
    refine Abreast.bind (P := fun c => ∃ d : Cancellable (Chronicled ε (World V)) (El t),
      d.KeepsAbreast (Alike tree tree') signal ∧ c = d.bound) ?_ ?_
    · refine (abreast_calling step.1 (hsteps step (List.mem_cons_self ..) u)).bind fun x _ => ?_
      exact (hnext x).map fun c hc => ⟨c, hc, rfl⟩
    · intro c hc
      obtain ⟨d, hd, rfl⟩ := hc
      have hrest := ih fun step hstep => hsteps step (List.mem_cons_of_mem _ hstep)
      exact .pure (hd.bound.flatMap hlib hrest)

/-- The task that is made of a discreet tree keeps abreast. -/
theorem build_abreast (hlib : Undivided (Alike tree tree') signal)
    (task : TaskTree ε (World V) El t) (hdiscreet : task.Discreet) :
    Abreast (Chronicle.Alike (Alike tree tree')) (task.build .chronicled)
      (Cancellable.KeepsAbreast (Alike tree tree') signal) := by
  induction task with
  | pure u => exact .pure (.ofValue u)
  | zero => exact .pure (.ofValue default)
  | delay closure work => exact .pure (.delay closure (World.Discreet.abreast hdiscreet nofun))
  | own closure f =>
    refine .pure (.leaf closure (World.Discreet.abreast (hdiscreet signal) fun signal' h => ?_))
    cases h
    exact hlib.poll
  | bind c closure k next ihc ihnext =>
    obtain ⟨hc, hk, hnext⟩ := hdiscreet
    refine (ihc hc).bind fun c hc => .pure (hc.bound.flatMap hlib fun u => ?_)
    exact (abreast_calling closure (hk u)).bind fun x _ => ihnext x (hnext x)
  | map c closure f ihc =>
    obtain ⟨hc, hf⟩ := hdiscreet
    refine (ihc hc).bind fun c hc => .pure (hc.bound.flatMap hlib fun u => ?_)
    exact (abreast_calling closure (hf u)).map fun v _ => .ofValue v
  | andThen first second ih₁ ih₂ =>
    refine (ih₁ hdiscreet.1).bind fun c hc => (ih₂ hdiscreet.2).bind fun d hd => ?_
    exact .pure (hc.bound.flatMap hlib fun _ => .pure hd)
  | sequencer steps next start closure finish ihnext ihstart =>
    obtain ⟨hsteps, hnext, hstart, hfinish⟩ := hdiscreet
    refine (ihstart hstart).bind fun c hc => ?_
    rw [build_recorded]
    refine (Cancellable.KeepsAbreast.report hlib _).bind fun _ _ => .pure ?_
    exact hc.bound.flatMap hlib
      (continuation_abreast hlib (fun x => ihnext x (hnext x)) closure hfinish steps hsteps)

/-- **A run does not see the sources that its token does not observe.** Let a task be made of a
discreet tree. Two histories of signals leave trees with the same cells and parents, in which the
flags of the token's cell and of the cells above it are the same. Run under the token from the one
tree and from the other, the task ends with the same value and flag or with the same panic, and its
records agree event by event: the same answers of the signal, the same notices, the same calls of
user code, which find and leave the same things in user code's own part of the world. The trees that
the runs leave again agree on the token's cell and the cells above it. -/
theorem unrelated_sources_unseen (task : TaskTree ε (World V) El t) (hdiscreet : task.Discreet)
    {ops ops' : List Signal.Op} {r r' : Signal.Registry}
    (hrun : Signal.Registry.empty.run ops = some r)
    (hrun' : Signal.Registry.empty.run ops' = some r') {name : String} {cell : Nat}
    (hcell : r.Observes name cell) (hagree : r.tree.AgreeAbove cell r'.tree)
    {d : Cancellable (EStateM ε (World V)) (El t)} {w₀ w₁ : World V}
    (hd : task.build .plain w₀ = .ok d w₁) (observe : Bool → EStateM ε V Unit) (v : V) :
    ∃ c built, task.build .chronicled ⟨w₀, []⟩ = .ok c ⟨w₁, built⟩ ∧ c.Twins d ∧
      SameEnd
        (fun after after' => Chronicle.Alike (Alike r.tree r'.tree) after after' ∧
          after.world.store.AgreeAbove cell after'.world.store)
        (c.run (observed cell observe).chronicled ⟨⟨v, r.tree⟩, []⟩)
        (c.run (observed cell observe).chronicled ⟨⟨v, r'.tree⟩, []⟩) := by
  obtain ⟨c, built, hc, htwins⟩ := task.build_shadows.exists_record hd []
  have htracks := Signal.Registry.tracks_run hrun
  have htracks' := Signal.Registry.tracks_run hrun'
  have hlib : Undivided (Alike r.tree r'.tree) (observed cell observe) :=
    undivided_observed hagree htracks.rooted htracks'.rooted (htracks.bounded hcell) observe
  have hkeeps : c.KeepsAbreast (Alike r.tree r'.tree) (observed cell observe) :=
    (build_abreast hlib task hdiscreet).returns _ _ _ hc
  refine ⟨c, built, hc, htwins, ?_⟩
  have hends := hkeeps.ends ⟨⟨v, r.tree⟩, []⟩ ⟨⟨v, r'.tree⟩, []⟩
    ⟨alike_start v r.tree r'.tree, .nil⟩
  exact hends.imp fun _ _ h => ⟨h, h.world.agreeAbove hagree⟩

section
open Script

/-- A source with a child, on which there is a token, and a source beside them. -/
def besides : List Signal.Op :=
  [.source "root", .token "root" "t", .child "t" "kid", .token "kid" "u", .source "other"]

/-- Counts a turn. -/
def ownTurn : EStateM Fault (World Session) (Script.El .int) :=
  privately (α := Script.El .int) (Act.tick "turns")

/-- Counts a turn, and cancels the root while its continuation is at work. -/
def rootCut : TaskTree Fault (World Session) Script.El .int :=
  .bind (.delay 0 ownTurn) 1 (fun _ => cancelling 0 >>= fun _ => ownTurn) .pure

/-- Notes an answer in the journal. -/
def noteAnswer (answer : Bool) : Act Unit := Act.record (.polled answer)

theorem rootCut_discreet : rootCut.Discreet := by
  refine ⟨.privately _, fun _ => ?_, fun _ => trivial⟩
  exact .bind (.cancelling 0) fun _ => .privately _

/-- Whether or not the other source is cancelled, the run is cut short behind the continuation. -/
theorem rootCut_unparted : ∃ r r' c, Signal.Registry.empty.run besides = some r ∧
    Signal.Registry.empty.run (besides ++ [.cancel "other"]) = some r' ∧ r.tree ≠ r'.tree ∧
    rootCut.build .chronicled ⟨⟨Session.fresh, .empty⟩, []⟩ =
      .ok c ⟨⟨Session.fresh, .empty⟩, []⟩ ∧
    SameEnd
      (fun after after' => Chronicle.Alike (Alike r.tree r'.tree) after after' ∧
        after.world.store.AgreeAbove 1 after'.world.store)
      (c.run (observed 1 noteAnswer).chronicled ⟨⟨Session.fresh, r.tree⟩, []⟩)
      (c.run (observed 1 noteAnswer).chronicled ⟨⟨Session.fresh, r'.tree⟩, []⟩) ∧
    answer? (c.run (observed 1 noteAnswer).chronicled ⟨⟨Session.fresh, r'.tree⟩, []⟩) =
      some ⟨(1 : Int64), true⟩ := by
  have hrun : Signal.Registry.empty.run besides = some _ := rfl
  have hrun' : Signal.Registry.empty.run (besides ++ [.cancel "other"]) = some _ := rfl
  have hcell {r : Signal.Registry} (h : Signal.Registry.empty.run besides = some r) :
      r.Observes "u" 1 := by
    cases h
    exact ⟨.token 1, rfl, rfl⟩
  have hrooted := (Signal.Registry.tracks_run hrun).rooted
  have hagree := Tree.AgreeAbove.cancel_elsewhere fun hup => absurd (hrooted.le_above hup)
    (by decide : ¬ 2 ≤ 1)
  have hplain : rootCut.build .plain ⟨Session.fresh, .empty⟩ = .ok _ ⟨Session.fresh, .empty⟩ := rfl
  obtain ⟨c, built, hc, -, hends⟩ := rootCut.unrelated_sources_unseen rootCut_discreet hrun hrun'
    (hcell hrun) hagree hplain noteAnswer Session.fresh
  cases hc
  exact ⟨_, _, _, rfl, rfl, by decide, rfl, hends, by decide +kernel⟩

end

end TaskTree

end Workflow
