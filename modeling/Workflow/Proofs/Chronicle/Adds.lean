import Workflow.Proofs.Chronicle

/-!
# What acts add to the record

`Adds x P` says that `x`, whenever it does not panic, adds events to the record of which `P` holds,
together with its result. One lemma for each act of a chronicled host says what it adds, and
`Adds.bind` puts the additions of two acts one behind the other, so a run is followed event by event
without opening the host.
-/

namespace Workflow

variable {ε W α β : Type}

/-- Whenever `x` does not panic, it adds events to the record, and `P` holds of them. -/
def Adds (x : Chronicled ε W α) (P : List (Event ε W) → α → Prop) : Prop :=
  ∀ c a c', x c = .ok a c' → ∃ new, c'.events = c.events ++ new ∧ P new a

namespace Adds

open Chronicled

variable {P : List (Event ε W) → α → Prop} {Q : List (Event ε W) → β → Prop}
  {x : Chronicled ε W α} {f : α → Chronicled ε W β}

theorem mono {P' : List (Event ε W) → α → Prop} (h : Adds x P)
    (hP : ∀ new a, P new a → P' new a) : Adds x P' := by
  intro c a c' hx
  obtain ⟨new, hnew, hp⟩ := h c a c' hx
  exact ⟨new, hnew, hP new a hp⟩

theorem pure {a : α} (h : P [] a) : Adds (Pure.pure a) P := by
  intro c b c' hx
  cases hx
  exact ⟨[], by simp, h⟩

theorem bind (h : Adds x P) (hf : ∀ a new, P new a → Adds (f a) fun more => Q (new ++ more)) :
    Adds (x >>= f) Q := by
  intro c b c' hx
  obtain ⟨a, c₁, ha, hb⟩ := exists_of_bind_ok hx
  obtain ⟨new, hnew, hp⟩ := h c a c₁ ha
  obtain ⟨more, hmore, hq⟩ := hf a new hp c₁ b c' hb
  exact ⟨new ++ more, by rw [hmore, hnew, List.append_assoc], hq⟩

theorem map {g : α → β} (h : Adds x P) (hg : ∀ a new, P new a → Q new (g a)) :
    Adds (g <$> x) Q := by
  rw [map_eq_pure_bind]
  exact h.bind fun a new hp => .pure (by simpa using hg a new hp)

theorem note {event : Event ε W} {P : List (Event ε W) → Unit → Prop} (h : P [event] ()) :
    Adds (note event) P := by
  intro c b c' hx
  cases hx
  exact ⟨[event], rfl, h⟩

theorem quietly {act : EStateM ε W α} (h : ∀ a, P [] a) : Adds (quietly act) P := by
  intro c a c' hx
  unfold Chronicled.quietly at hx
  split at hx
  · cases hx
    exact ⟨[], by simp, h a⟩
  · cases hx

/-- An act of user code leaves the entry that is made of its run. -/
theorem performed {closure : Nat} {entry : Call ε W → Option α → Event ε W}
    {act : EStateM ε W α}
    (h : ∀ before a after, act before = .ok a after →
      P [entry ⟨closure, before, after, none⟩ (some a)] a) :
    Adds (Chronicled.performing closure entry act) P := by
  intro c a c' hx
  unfold Chronicled.performing at hx
  split at hx
  · next hact =>
    cases hx
    exact ⟨_, rfl, h _ a _ hact⟩
  · cases hx

theorem performing {closure : Nat} {entry : Call ε W → Option α → Event ε W}
    {act : EStateM ε W α}
    (h : ∀ before after a, P [entry ⟨closure, before, after, none⟩ (some a)] a) :
    Adds (performing closure entry act) P :=
  performed fun before a after _ => h before after a

theorem calling {closure : Nat} {act : EStateM ε W α}
    (h : ∀ before after a, P [.called ⟨closure, before, after, none⟩] a) :
    Adds (calling closure act) P := performing h

/-- A call leaves the closure's number. -/
theorem called (closure : Nat) (act : EStateM ε W α) :
    Adds (Chronicled.calling closure act) fun new _ => new.map Event.mark = [.called closure] :=
  calling fun _ _ _ => rfl

theorem report [Reports (EStateM ε W)] {n : Notice} {P : List (Event ε W) → Unit → Prop}
    (h : P [.noticed n] ()) : Adds (Reports.report n : Chronicled ε W Unit) P :=
  (note (P := fun new _ => new = [.noticed n]) rfl).bind fun _ new hnew =>
    quietly fun _ => by simpa [hnew] using h

theorem poll (signal : Signal (EStateM ε W)) :
    Adds signal.chronicled.poll fun new answer => new = [.looked answer] :=
  (quietly (P := fun new _ => new = []) fun _ => rfl).bind fun answer _ h =>
    (note (P := fun new _ => new = [.looked answer]) rfl).bind fun _ new hnew =>
      .pure (by simp [h, hnew])

/-- What happens in the world is found again, with a record of which `P` holds. -/
theorem exists_record {R : α → β → Prop} {y : EStateM ε W β} {w w' : W} {b : β} (h : Adds x P)
    (hxy : Shadows R x y) (hy : y w = .ok b w') :
    ∃ a events, x ⟨w, []⟩ = .ok a ⟨w', events⟩ ∧ R a b ∧ P events a := by
  obtain ⟨a, events, hx, hab⟩ := hxy.exists_record hy []
  obtain ⟨new, hnew, hp⟩ := h _ _ _ hx
  rw [List.nil_append] at hnew
  subst hnew
  exact ⟨a, events, hx, hab, hp⟩

/-- A look, and what each answer leads to. -/
theorem checkpoint {signal : Signal (EStateM ε W)} {x y : Chronicled ε W α}
    (hx : Adds x fun new => P (.looked true :: new))
    (hy : Adds y fun new => P (.looked false :: new)) :
    Adds (signal.chronicled.poll >>= fun answer => if answer then x else y) P := by
  refine (poll signal).bind fun answer new hnew => ?_
  subst hnew
  cases answer with
  | true => exact hx
  | false => exact hy

/-- A task that is run like a leaf adds one event. -/
theorem run_sealed (c : Cancellable (EStateM ε W) α) (closure : Nat)
    (signal : Signal (Chronicled ε W)) : Adds ((c.sealed closure).run signal)
      fun new ending => new.map Event.mark = [.ran closure ending.cancelled] := by
  rw [Cancellable.sealed, Cancellable.run_leaf]
  exact performing fun _ _ ending => by simp [Event.mark]

/-- The event shows between which worlds the task was run. -/
theorem ran_sealed (c : Cancellable (EStateM ε W) α) (closure : Nat)
    (signal : Signal (EStateM ε W)) :
    Adds ((c.sealed closure).run signal.chronicled) fun new ending =>
      ∃ w w', c.run signal w = .ok ending w' ∧
        new = [.ran ⟨closure, w, w', none⟩ ending.cancelled] := by
  rw [Cancellable.sealed, Cancellable.run_leaf, Signal.bare_chronicled]
  exact performed fun w ending w' hrun => ⟨w, w', hrun, rfl⟩

/-- A closure that answers a task. -/
theorem calling_sealed (closure : Nat) (act : EStateM ε W (Cancellable (EStateM ε W) α)) :
    Adds ((Cancellable.sealed · closure) <$> Chronicled.calling closure act) fun new c =>
      new.map Event.mark = [.called closure] ∧ ∃ d, c = Cancellable.sealed d closure :=
  (called closure act).map fun d _ hcalled => ⟨hcalled, d, rfl⟩

theorem stopped [Reports (EStateM ε W)] (at_ : Checkpoint) (a : α) :
    Adds (Cancellable.stop at_ a : Chronicled ε W (Ending α)) fun new ending =>
      new = [.noticed (.observed at_)] ∧ ending = ⟨a, true⟩ :=
  (report (P := fun new _ => new = [.noticed (.observed at_)]) rfl).bind
    fun _ _ h => .pure ⟨by simp [h], rfl⟩

theorem stop [Reports (EStateM ε W)] (at_ : Checkpoint) (a : α) :
    Adds (Cancellable.stop at_ a : Chronicled ε W (Ending α)) fun new ending =>
      new = [.noticed (.observed at_)] ∧ ending.cancelled = true :=
  (stopped at_ a).mono fun _ _ ⟨hnew, hending⟩ => ⟨hnew, by rw [hending]⟩

end Adds

end Workflow
