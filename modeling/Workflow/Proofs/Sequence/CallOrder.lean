import Workflow.Proofs.Nesting.Regrouped
import Workflow.Script.Session
import Workflow.Sequence

/-!
# The order in which two binds call their closures

Two binds of sequences make the same elements, whichever way they are grouped, but they do not call
their closures in the same order. Grouped to the left, `f` has been called on all elements before `g`
is called at all; grouped to the right, what `f` answers is handed to `g` before `f` is called on the
next element. The one goes breadth first (`Sequence.breadthFirst`), the other depth first
(`Sequence.depthFirst`). The calls are the same ones, and those of each closure are in the same order.

The closures may do anything, and panic when they like; what they answer has to depend on their
arguments alone (`Consistent`). Then binding is calling: `MakesCalls` says of an act that it makes
one call after the other up to the first that panics, and that this is what is heard of it.
-/

namespace Workflow

variable {ε W α β γ κ : Type}

/-! ## Closures whose answers depend on their arguments -/

/-- The closure answers what `F` tells, if it answers at all. -/
def Consistent (f : α → EStateM ε W β) (F : α → β) : Prop :=
  ∀ ⦃a w b w'⦄, f a w = .ok b w' → b = F a

namespace Consistent

variable {f : α → EStateM ε W β} {F : α → β}

/-- Behind a call it is known what was answered. -/
theorem bind_eq (hf : Consistent f F) (a : α) (k : β → EStateM ε W γ) :
    f a >>= k = f a >>= fun _ => k (F a) := by
  funext w
  cases h : f a w with
  | ok b w' => rw [bind_of_ok h, bind_of_ok h, hf h]
  | error e w' => rw [bind_of_error h, bind_of_error h]

theorem bind {k : β → EStateM ε W γ} {K : β → γ} (hf : Consistent f F) (hk : Consistent k K) :
    Consistent (fun a => f a >>= k) fun a => K (F a) := by
  intro a w c w' h
  obtain ⟨b, w₁, hb, hc⟩ := exists_of_bind_ok h
  rw [hk hc, hf hb]

/-- A bind calls the closure on each element, and lines up what it is known to answer. -/
theorem flatMap_eq {f : α → EStateM ε W (Sequence β)} {F : α → Sequence β} (hf : Consistent f F)
    (s : Sequence α) : s.flatMap f = (do
      forM s.elements fun a => (fun _ => ()) <$> f a
      return ⟨s.elements.flatMap fun a => (F a).elements⟩) := by
  obtain ⟨as⟩ := s
  induction as with
  | nil => rfl
  | cons a as ih =>
    rw [Sequence.flatMap_cons, hf.bind_eq, ih]
    simp [Sequence.append]

theorem flatMap {f : α → EStateM ε W (Sequence β)} {F : α → Sequence β} (hf : Consistent f F) :
    Consistent (fun s : Sequence α => s.flatMap f)
      fun s => ⟨s.elements.flatMap fun a => (F a).elements⟩ := by
  intro s w r w' h
  change s.flatMap f w = _ at h
  rw [hf.flatMap_eq] at h
  obtain ⟨_, w₁, _, hr⟩ := exists_of_bind_ok h
  cases hr
  rfl

end Consistent

/-! ## Orders -/

/-- A call of one of two closures, on an argument of the first or of the second. -/
def visit (f : α → EStateM ε W (Sequence β)) (g : β → EStateM ε W (Sequence γ)) :
    α ⊕ β → EStateM ε W Unit
  | .inl a => (fun _ => ()) <$> f a
  | .inr b => (fun _ => ()) <$> g b

theorem forM_flatMap {m : Type → Type} [Monad m] [LawfulMonad m] (l : List α) (φ : α → List κ)
    (perform : κ → m Unit) : forM (l.flatMap φ) perform = forM l fun a => forM (φ a) perform := by
  induction l with
  | nil => rfl
  | cons a l ih => rw [List.flatMap_cons, List.forM_append, List.forM_cons, ih]

namespace Sequence

/-- All elements, and then all that the first closure answers. -/
def breadthFirst (s : Sequence α) (F : α → Sequence β) : List (α ⊕ β) :=
  s.elements.map .inl ++ (s.elements.flatMap fun a => (F a).elements).map .inr

/-- Each element, followed by what the first closure answers for it. -/
def depthFirst (s : Sequence α) (F : α → Sequence β) : List (α ⊕ β) :=
  s.elements.flatMap fun a => .inl a :: (F a).elements.map .inr

/-- What the second closure answers for all that the first one answers. -/
def leaves (s : Sequence α) (F : α → Sequence β) (G : β → Sequence γ) : Sequence γ :=
  ⟨s.elements.flatMap fun a => (F a).elements.flatMap fun b => (G b).elements⟩

section
variable (s : Sequence α) (F : α → Sequence β)

theorem getLeft?_breadthFirst : (s.breadthFirst F).filterMap Sum.getLeft? = s.elements := by
  simp [breadthFirst, List.filterMap_map, Function.comp_def]

theorem getRight?_breadthFirst : (s.breadthFirst F).filterMap Sum.getRight? =
    s.elements.flatMap fun a => (F a).elements := by
  simp [breadthFirst, List.filterMap_map, Function.comp_def]

theorem getLeft?_depthFirst : (s.depthFirst F).filterMap Sum.getLeft? = s.elements := by
  have hcalls (a : α) : (Sum.inl a :: (F a).elements.map Sum.inr).filterMap Sum.getLeft? = [a] := by
    simp [List.filterMap_map, Function.comp_def]
  simp only [depthFirst, List.filterMap_flatMap, hcalls, List.flatMap_singleton']

theorem getRight?_depthFirst : (s.depthFirst F).filterMap Sum.getRight? =
    s.elements.flatMap fun a => (F a).elements := by
  have hcalls (a : α) : (Sum.inl a :: (F a).elements.map Sum.inr).filterMap Sum.getRight? =
      (F a).elements := by
    simp [List.filterMap_cons, List.filterMap_map, Function.comp_def]
  simp only [depthFirst, List.filterMap_flatMap, hcalls]

end

variable {f : α → EStateM ε W (Sequence β)} {g : β → EStateM ε W (Sequence γ)}
  {F : α → Sequence β} {G : β → Sequence γ}

theorem flatMap_then_flatMap (hf : Consistent f F) (hg : Consistent g G) (s : Sequence α) :
    (s.flatMap f >>= fun r => r.flatMap g) = (do
      forM (s.breadthFirst F) (visit f g)
      return s.leaves F G) := by
  rw [hf.flatMap_eq]
  simp [hg.flatMap_eq, breadthFirst, leaves, visit, List.flatMap_assoc]

theorem flatMap_of_flatMap (hf : Consistent f F) (hg : Consistent g G) (s : Sequence α) :
    (s.flatMap fun a => f a >>= fun r => r.flatMap g) = (do
      forM (s.depthFirst F) (visit f g)
      return s.leaves F G) := by
  -- seen from outside, a call of `f` takes the calls of `g` on its answer with it
  have hcalls (a : α) : (fun _ => ()) <$> (f a >>= fun r => r.flatMap g) =
      forM (.inl a :: (F a).elements.map .inr) (visit f g) := by
    rw [hf.bind_eq, hg.flatMap_eq]
    simp [visit]
  rw [(hf.bind hg.flatMap).flatMap_eq, depthFirst, forM_flatMap]
  simp only [hcalls, leaves]

end Sequence

/-! ## Calls that are heard -/

/-- A world, and the calls that were made in it. -/
structure Heard (κ W : Type) where
  world : W
  calls : List κ

/-- A call is heard when it is made, whatever comes of it. -/
def hearing (call : κ) (act : EStateM ε W α) : EStateM ε (Heard κ W) α := fun h =>
  match act h.world with
  | .ok a w => .ok a ⟨w, h.calls ++ [call]⟩
  | .error e w => .error e ⟨w, h.calls ++ [call]⟩

section
variable {act : EStateM ε W α} {w w' : W}

theorem hearing_of_ok {a : α} (h : act w = .ok a w') (call : κ) (before : List κ) :
    hearing call act ⟨w, before⟩ = .ok a ⟨w', before ++ [call]⟩ := by
  simp only [hearing, h]

theorem hearing_of_error {e : ε} (h : act w = .error e w') (call : κ) (before : List κ) :
    hearing call act ⟨w, before⟩ = .error e ⟨w', before ++ [call]⟩ := by
  simp only [hearing, h]

theorem map_hearing (φ : α → β) (call : κ) (act : EStateM ε W α) :
    φ <$> hearing call act = hearing call (φ <$> act) := by
  funext h
  simp only [map_eq_pure_bind]
  cases hact : act h.world with
  | ok a w =>
    have hmapped : (act >>= fun a => pure (φ a)) h.world = .ok (φ a) w := bind_of_ok hact _
    refine (bind_of_ok (hearing_of_ok hact call h.calls) _).trans ?_
    exact (hearing_of_ok hmapped call h.calls).symm
  | error e w =>
    have hmapped : (act >>= fun a => pure (φ a)) h.world = .error e w := bind_of_error hact _
    refine (bind_of_error (hearing_of_error hact call h.calls) _).trans ?_
    exact (hearing_of_error hmapped call h.calls).symm

theorem Consistent.hearing {f : α → EStateM ε W β} {F : α → β} (hf : Consistent f F)
    (call : α → κ) : Consistent (fun a => hearing (call a) (f a)) F := by
  intro a h b h' hb
  cases hfa : f a h.world with
  | ok b' w =>
    cases (hearing_of_ok hfa (call a) h.calls).symm.trans hb
    exact hf hfa
  | error e w => cases (hearing_of_error hfa (call a) h.calls).symm.trans hb

end

section
variable (perform : κ → EStateM ε W Unit)

/-- Calls that return are all heard. -/
theorem forM_hearing_of_ok {calls : List κ} {w w' : W} (h : forM calls perform w = .ok () w')
    (before : List κ) :
    forM calls (fun call => hearing call (perform call)) ⟨w, before⟩ =
      .ok () ⟨w', before ++ calls⟩ := by
  induction calls generalizing w before with
  | nil =>
    cases h
    rw [List.append_nil]
    rfl
  | cons call calls ih =>
    rw [List.forM_cons] at h ⊢
    obtain ⟨_, w₁, hcall, hcalls⟩ := exists_of_bind_ok h
    rw [bind_of_ok (hearing_of_ok hcall call before), ih hcalls, List.append_assoc]
    rfl

/-- The call that panics is the last one that is heard. -/
theorem forM_hearing_of_error {front back : List κ} {call : κ} {w w₁ w₂ : W} {e : ε}
    (hfront : forM front perform w = .ok () w₁) (hcall : perform call w₁ = .error e w₂)
    (before : List κ) :
    forM (front ++ call :: back) (fun call => hearing call (perform call)) ⟨w, before⟩ =
      .error e ⟨w₂, before ++ (front ++ [call])⟩ := by
  rw [List.forM_append, bind_of_ok (forM_hearing_of_ok perform hfront before), List.forM_cons,
    bind_of_error (hearing_of_error hcall call _), List.append_assoc]

end

/-- `x` makes the calls one after the other, up to the first that panics, and answers `a` behind the
last one; `heard` is `x` when its calls are heard. -/
structure MakesCalls (perform : κ → EStateM ε W Unit) (calls : List κ) (a : α)
    (x : EStateM ε W α) (heard : EStateM ε (Heard κ W) α) : Prop where
  acts : x = do forM calls perform; return a
  /-- If all calls return, this is what is heard. -/
  returned {w w' : W} (hcalls : forM calls perform w = .ok () w') (before : List κ) :
    heard ⟨w, before⟩ = .ok a ⟨w', before ++ calls⟩
  /-- Behind a call that panics nothing is heard. -/
  panicked {front back : List κ} {call : κ} {w w₁ w₂ : W} {e : ε}
    (hcalls : calls = front ++ call :: back) (hfront : forM front perform w = .ok () w₁)
    (hcall : perform call w₁ = .error e w₂) (before : List κ) :
    heard ⟨w, before⟩ = .error e ⟨w₂, before ++ (front ++ [call])⟩

theorem MakesCalls.of_acts {perform : κ → EStateM ε W Unit} {calls : List κ} {a : α}
    {x : EStateM ε W α} {heard : EStateM ε (Heard κ W) α} (hx : x = do forM calls perform; return a)
    (hheard : heard = do
      forM calls fun call => hearing call (perform call)
      return a) : MakesCalls perform calls a x heard where
  acts := hx
  returned hcalls before := by
    rw [hheard]
    exact bind_of_ok (forM_hearing_of_ok perform hcalls before) _
  panicked hcalls hfront hcall before := by
    subst hcalls
    rw [hheard]
    exact bind_of_error (forM_hearing_of_error perform hfront hcall before) _

/-- Hearing the calls of both closures is hearing the visits. -/
theorem visit_hearing (f : α → EStateM ε W (Sequence β)) (g : β → EStateM ε W (Sequence γ)) :
    visit (fun a => hearing (Sum.inl a : α ⊕ β) (f a)) (fun b => hearing (Sum.inr b) (g b)) =
      fun call => hearing call (visit f g call) := by
  funext call
  cases call with
  | inl a => exact map_hearing _ _ (f a)
  | inr b => exact map_hearing _ _ (g b)

/-! ## Two groupings -/

/-- The act returns, whatever the world. -/
def Returns (x : EStateM ε W α) : Prop := ∀ w, ∃ a w', x w = .ok a w'

/-- The act panics, whatever the world. -/
def Panics (x : EStateM ε W α) : Prop := ∀ w, ∃ e w', x w = .error e w'

theorem Returns.drop {x : EStateM ε W α} (h : Returns x) : Returns ((fun _ => ()) <$> x) := by
  intro w
  obtain ⟨a, w', hx⟩ := h w
  rw [map_eq_pure_bind]
  exact ⟨(), w', bind_of_ok hx _⟩

theorem Returns.forM {perform : κ → EStateM ε W Unit} {calls : List κ}
    (h : ∀ call ∈ calls, Returns (perform call)) : Returns (forM calls perform) := by
  induction calls with
  | nil => exact fun w => ⟨(), w, rfl⟩
  | cons call calls ih =>
    intro w
    obtain ⟨hcall, hcalls⟩ := List.forall_mem_cons.mp h
    obtain ⟨_, w₁, hcall⟩ := hcall w
    rw [List.forM_cons, bind_of_ok hcall]
    exact ih hcalls w₁

theorem error_of_visit {f : α → EStateM ε W (Sequence β)} {g : β → EStateM ε W (Sequence γ)} {a : α}
    {w w' : W} {e : ε} (h : f a w = .error e w') : visit f g (.inl a) w = .error e w' := by
  rw [visit, map_eq_pure_bind]
  exact bind_of_error h _

namespace Sequence

section
variable (s : Sequence α) (F : α → Sequence β) {front back : List α} {a : α}

theorem breadthFirst_split (h : s.elements = front ++ a :: back) : ∃ rest,
    s.breadthFirst F = front.map .inl ++ .inl a :: rest := by
  rw [breadthFirst, h, List.map_append, List.append_assoc]
  exact ⟨_, rfl⟩

theorem depthFirst_split (h : s.elements = front ++ a :: back) : ∃ rest,
    s.depthFirst F = depthFirst ⟨front⟩ F ++ .inl a :: rest := by
  rw [depthFirst, h, List.flatMap_append]
  exact ⟨_, rfl⟩

end

variable {ι : Type} {El : ι → Type} {r s t : ι}

/-- The two binds grouped to the left, with the calls of both closures heard. -/
def heardLeft (c : Sequence (El r)) (f : El r → EStateM ε W (Sequence (El s)))
    (g : El s → EStateM ε W (Sequence (El t))) :
    EStateM ε (Heard (El r ⊕ El s) W) (Sequence (El t)) :=
  (Builder.sequence _ El).bindLeft c (fun u => hearing (.inl u) (f u))
    fun v => hearing (.inr v) (g v)

/-- The two binds grouped to the right, with the calls of both closures heard. -/
def heardRight (c : Sequence (El r)) (f : El r → EStateM ε W (Sequence (El s)))
    (g : El s → EStateM ε W (Sequence (El t))) :
    EStateM ε (Heard (El r ⊕ El s) W) (Sequence (El t)) :=
  (Builder.sequence _ El).bindRight c (fun u => hearing (.inl u) (f u))
    fun v => hearing (.inr v) (g v)

/-- Which calls two binds make in the one grouping and in the other. -/
structure CallsOfGroupings (c : Sequence (El r)) (f : El r → EStateM ε W (Sequence (El s)))
    (g : El s → EStateM ε W (Sequence (El t))) (F : El r → Sequence (El s))
    (G : El s → Sequence (El t)) : Prop where
  /-- Grouped to the left, `g` is called when `f` has been called on all elements. -/
  left : MakesCalls (visit f g) (c.breadthFirst F) (c.leaves F G)
    ((Builder.sequence (EStateM ε W) El).bindLeft c f g) (heardLeft c f g)
  /-- Grouped to the right, `g` is called on what `f` answers before `f` is called again. -/
  right : MakesCalls (visit f g) (c.depthFirst F) (c.leaves F G)
    ((Builder.sequence (EStateM ε W) El).bindRight c f g) (heardRight c f g)
  /-- In both, `f` is called on the elements in order. -/
  firstCalls : (c.breadthFirst F).filterMap Sum.getLeft? = c.elements ∧
    (c.depthFirst F).filterMap Sum.getLeft? = c.elements
  /-- In both, `g` is called on all that `f` answers, in order. -/
  secondCalls : (c.breadthFirst F).filterMap Sum.getRight? =
      c.elements.flatMap (fun u => (F u).elements) ∧
    (c.depthFirst F).filterMap Sum.getRight? = c.elements.flatMap fun u => (F u).elements
  /-- If `f` panics on an element, and on none before it, `g` has not been called. -/
  brokenLeft {front back : List (El r)} {u : El r} {w w₁ w₂ : W} {e : ε}
    (hc : c.elements = front ++ u :: back)
    (hfront : forM (front.map Sum.inl) (visit f g) w = .ok () w₁) (hu : f u w₁ = .error e w₂)
    (before : List (El r ⊕ El s)) :
    heardLeft c f g ⟨w, before⟩ = .error e ⟨w₂, before ++ (front.map .inl ++ [.inl u])⟩
  /-- If `f` panics on an element, and nothing has panicked before, `g` has been called on all that
  `f` answered for the elements before it. -/
  brokenRight {front back : List (El r)} {u : El r} {w w₁ w₂ : W} {e : ε}
    (hc : c.elements = front ++ u :: back)
    (hfront : forM (depthFirst ⟨front⟩ F) (visit f g) w = .ok () w₁) (hu : f u w₁ = .error e w₂)
    (before : List (El r ⊕ El s)) :
    heardRight c f g ⟨w, before⟩ =
      .error e ⟨w₂, before ++ (depthFirst ⟨front⟩ F ++ [.inl u])⟩
  /-- So it is, in both, on an element on which `f` always panics, if it does not on those before it
  and `g` never does. -/
  broken {front back : List (El r)} {u : El r} (hc : c.elements = front ++ u :: back)
    (hfront : ∀ v ∈ front, Returns (f v)) (hu : Panics (f u)) (hg : ∀ v, Returns (g v)) (w : W)
    (before : List (El r ⊕ El s)) :
    (∃ e w', heardLeft c f g ⟨w, before⟩ =
      .error e ⟨w', before ++ (front.map .inl ++ [.inl u])⟩) ∧
    ∃ e w', heardRight c f g ⟨w, before⟩ =
      .error e ⟨w', before ++ (depthFirst ⟨front⟩ F ++ [.inl u])⟩

variable {c : Sequence (El r)} {f : El r → EStateM ε W (Sequence (El s))}
  {g : El s → EStateM ε W (Sequence (El t))} {F : El r → Sequence (El s)} {G : El s → Sequence (El t)}

theorem left_makesCalls (hf : Consistent f F) (hg : Consistent g G) :
    MakesCalls (visit f g) (c.breadthFirst F) (c.leaves F G)
      ((Builder.sequence (EStateM ε W) El).bindLeft c f g) (heardLeft c f g) := by
  refine .of_acts (flatMap_then_flatMap hf hg c) ?_
  rw [← visit_hearing]
  exact flatMap_then_flatMap (hf.hearing Sum.inl) (hg.hearing Sum.inr) c

theorem right_makesCalls (hf : Consistent f F) (hg : Consistent g G) :
    MakesCalls (visit f g) (c.depthFirst F) (c.leaves F G)
      ((Builder.sequence (EStateM ε W) El).bindRight c f g) (heardRight c f g) := by
  refine .of_acts (flatMap_of_flatMap hf hg c) ?_
  rw [← visit_hearing]
  exact flatMap_of_flatMap (hf.hearing Sum.inl) (hg.hearing Sum.inr) c

/-- No call of `g` comes before the call of `f` that panics. -/
theorem heardLeft_of_panic (hf : Consistent f F) (hg : Consistent g G) {front back : List (El r)}
    {u : El r} {w w₁ w₂ : W} {e : ε} (hc : c.elements = front ++ u :: back)
    (hfront : forM (front.map Sum.inl) (visit f g) w = .ok () w₁) (hu : f u w₁ = .error e w₂)
    (before : List (El r ⊕ El s)) :
    heardLeft c f g ⟨w, before⟩ = .error e ⟨w₂, before ++ (front.map .inl ++ [.inl u])⟩ := by
  obtain ⟨rest, hcalls⟩ := c.breadthFirst_split F hc
  exact (left_makesCalls hf hg).panicked hcalls hfront (error_of_visit hu) before

/-- All calls of `g` for the elements before it come before the call of `f` that panics. -/
theorem heardRight_of_panic (hf : Consistent f F) (hg : Consistent g G) {front back : List (El r)}
    {u : El r} {w w₁ w₂ : W} {e : ε} (hc : c.elements = front ++ u :: back)
    (hfront : forM (depthFirst ⟨front⟩ F) (visit f g) w = .ok () w₁) (hu : f u w₁ = .error e w₂)
    (before : List (El r ⊕ El s)) :
    heardRight c f g ⟨w, before⟩ =
      .error e ⟨w₂, before ++ (depthFirst ⟨front⟩ F ++ [.inl u])⟩ := by
  obtain ⟨rest, hcalls⟩ := c.depthFirst_split F hc
  exact (right_makesCalls hf hg).panicked hcalls hfront (error_of_visit hu) before

/-- **Both groupings make the same calls, in different orders.** Let what two closures answer depend
on their arguments alone. Grouped to the left, two binds of sequences call `f` on every element and
then `g` on everything that `f` answered; grouped to the right, they call `g` on what `f` answers for
an element before they call `f` on the next. The elements are the same, and so are the calls of each
closure, with their order. If `f` panics, the calls that it cuts off are those that come behind. -/
theorem calls_of_groupings (c : Sequence (El r)) (hf : Consistent f F) (hg : Consistent g G) :
    CallsOfGroupings c f g F G := by
  constructor
  case left => exact left_makesCalls hf hg
  case right => exact right_makesCalls hf hg
  case firstCalls => exact ⟨c.getLeft?_breadthFirst F, c.getLeft?_depthFirst F⟩
  case secondCalls => exact ⟨c.getRight?_breadthFirst F, c.getRight?_depthFirst F⟩
  case brokenLeft => exact heardLeft_of_panic hf hg
  case brokenRight => exact heardRight_of_panic hf hg
  case broken =>
    intro front back u hc hfront hu hreturns w before
    -- what comes before the call on `u` returns, in whatever world, so that `f` is called on it
    have hvisits (v : El r) (hv : v ∈ front) : Returns (visit f g (.inl v)) := (hfront v hv).drop
    constructor
    · have hcalls : Returns (forM (front.map Sum.inl) (visit f g)) :=
        .forM (List.forall_mem_map.mpr hvisits)
      obtain ⟨_, w₁, hcalls⟩ := hcalls w
      obtain ⟨e, w₂, hu⟩ := hu w₁
      exact ⟨e, w₂, heardLeft_of_panic hf hg hc hcalls hu before⟩
    · have hcalls : Returns (forM (depthFirst ⟨front⟩ F) (visit f g)) := by
        refine .forM fun call hcall => ?_
        obtain ⟨v, hv, hcall⟩ := List.mem_flatMap.mp hcall
        cases call with
        | inl v' =>
          obtain rfl : v' = v := by simpa using hcall
          exact hvisits v' hv
        | inr v' => exact (hreturns v').drop
      obtain ⟨_, w₁, hcalls⟩ := hcalls w
      obtain ⟨e, w₂, hu⟩ := hu w₁
      exact ⟨e, w₂, heardRight_of_panic hf hg hc hcalls hu before⟩

end Sequence

section
open Script

/-- Leaves a word and answers two numbers, but gives up on three. -/
def fork (u : Int64) : Act (Sequence Int64) := do
  Act.record (.remark "fork")
  if u = 3 then throw .divisionByZero else return ⟨[10 * u, 10 * u + 1]⟩

/-- Leaves another word and answers the number behind. -/
def twig (v : Int64) : Act (Sequence Int64) := do
  Act.record (.remark "twig")
  return ⟨[v + 1]⟩

theorem consistent_fork : Consistent fork fun u => ⟨[10 * u, 10 * u + 1]⟩ := by
  intro u w r w' h
  by_cases hu : u = 3
  -- three has no answer that could differ
  · obtain ⟨w'', hpanic⟩ : ∃ w'', fork u w = .error .divisionByZero w'' := by
      subst hu
      exact ⟨_, rfl⟩
    cases hpanic.symm.trans h
  · simp only [fork, if_neg hu] at h
    cases h
    rfl

theorem consistent_twig : Consistent twig fun v => ⟨[v + 1]⟩ := by
  intro v w r w' h
  cases h
  rfl

/-- The forks of all numbers, and then all twigs. -/
def forksFirst (us : List Int64) : EStateM Fault (Heard (Int64 ⊕ Int64) Session) (Sequence Int64) :=
  Sequence.heardLeft (s := Ty.int) (t := Ty.int) (⟨us⟩ : Sequence (Script.El .int)) fork twig

/-- The fork of each number with its twigs. -/
def forksInTurn (us : List Int64) : EStateM Fault (Heard (Int64 ⊕ Int64) Session) (Sequence Int64) :=
  Sequence.heardRight (s := Ty.int) (t := Ty.int) (⟨us⟩ : Sequence (Script.El .int)) fork twig

/-- The calls for one and two, in both orders, and those for one and three, which give up. -/
theorem forks_called : ∃ w₁ w₂ w₃ w₄,
    Consistent fork (fun u => ⟨[10 * u, 10 * u + 1]⟩) ∧ Consistent twig (fun v => ⟨[v + 1]⟩) ∧
    forksFirst [1, 2] ⟨Session.fresh, []⟩ = .ok ⟨[11, 12, 21, 22]⟩
      ⟨w₁, [.inl 1, .inl 2, .inr 10, .inr 11, .inr 20, .inr 21]⟩ ∧
    forksInTurn [1, 2] ⟨Session.fresh, []⟩ = .ok ⟨[11, 12, 21, 22]⟩
      ⟨w₂, [.inl 1, .inr 10, .inr 11, .inl 2, .inr 20, .inr 21]⟩ ∧
    forksFirst [1, 3] ⟨Session.fresh, []⟩ =
      .error .divisionByZero ⟨w₃, [.inl 1, .inl 3]⟩ ∧
    forksInTurn [1, 3] ⟨Session.fresh, []⟩ =
      .error .divisionByZero ⟨w₄, [.inl 1, .inr 10, .inr 11, .inl 3]⟩ := by
  have htwo := Sequence.calls_of_groupings (s := Ty.int) (t := Ty.int)
    (⟨[1, 2]⟩ : Sequence (Script.El .int)) consistent_fork consistent_twig
  have hthree := Sequence.calls_of_groupings (s := Ty.int) (t := Ty.int)
    (⟨[1, 3]⟩ : Sequence (Script.El .int)) consistent_fork consistent_twig
  have hleft := htwo.left.returned (w := Session.fresh) rfl []
  have hright := htwo.right.returned (w := Session.fresh) rfl []
  have hthird : ([1, 3] : List Int64) = [1] ++ 3 :: [] := rfl
  have hbrokenLeft := hthree.brokenLeft (w := Session.fresh) hthird rfl rfl []
  have hbrokenRight := hthree.brokenRight (w := Session.fresh) hthird rfl rfl []
  exact ⟨_, _, _, _, consistent_fork, consistent_twig, hleft, hright, hbrokenLeft, hbrokenRight⟩

end

end Workflow
