import Workflow.Optional
import Workflow.Proofs.Nesting.WrittenOut

/-!
# Translations between builders

Two builders may have the same sense of sequencing: there is a function from the computations of the
one to those of the other that takes plain values to plain values, the zero to the zero, and a bind
to the bind of the translated computations. A `Translation` is such a function. What is derived from
these operations respects it as well: `map`, `andThen`, and the continuation that a sequencer of
bind steps makes of its steps (`translate_continuation`, by induction on the steps).

A translation is applied behind the act that makes a computation, so the equations are equations of
acts of the host: on both sides the same closures are called in the same order on the same values,
they do the same, and a panic ends both at the same place.

`Translation.ofOption` takes an optional value to the sequence of at most one value, and
`ofOption_respects` collects what this says of the two builders. A sequencer that is moved from the
one builder to the other differs in nothing but the builder's name in its notice.
-/

namespace Workflow

variable {m : Type → Type} [Monad m] {ι : Type} {El : ι → Type} {s t : ι}

namespace Builder

/-- A way to read the computations of `b` as computations of `b'` that respects how they are
made. -/
structure Translation (b b' : Builder m El) where
  translate {t : ι} : b.Comp t → b'.Comp t
  translate_pure {t : ι} (u : El t) : translate (b.pure u) = b'.pure u
  translate_zero {t : ι} : translate (b.zero : b.Comp t) = b'.zero
  translate_bind {s t : ι} (c : b.Comp s) (k : El s → m (b.Comp t)) :
    translate <$> b.bind c k = b'.bind (translate c) fun u => translate <$> k u

namespace Translation

variable [LawfulMonad m] {b b' : Builder m El} (φ : Translation b b')

theorem translate_map_pure (x : m (El t)) : φ.translate <$> b.pure <$> x = b'.pure <$> x := by
  rw [← comp_map]
  exact congrArg (· <$> x) (funext φ.translate_pure)

theorem translate_map (c : b.Comp s) (f : El s → m (El t)) :
    φ.translate <$> b.map c f = b'.map (φ.translate c) f := by
  simp only [Builder.map, φ.translate_bind, translate_map_pure]

theorem translate_andThen (first : b.Comp s) (second : b.Comp t) :
    φ.translate <$> b.andThen first second =
      b'.andThen (φ.translate first) (φ.translate second) := by
  simp only [andThen, φ.translate_bind, map_pure]

/-- The steps of a sequencer, translated one by one, make the translated continuation. -/
theorem translate_continuation (ks : List (El t → m (b.Comp t))) (finish : El t → m (El t))
    (u : El t) :
    φ.translate <$> (Sequencer.ofBinds ks).continuation finish u =
      (Sequencer.ofBinds (ks.map fun k u => φ.translate <$> k u)).continuation finish u := by
  simp only [Sequencer.continuation, Sequencer.steps_ofBinds, List.map_map]
  induction ks generalizing u with
  | nil => exact φ.translate_map_pure (finish u)
  | cons k ks ih =>
    simp only [List.map_cons, List.foldr_cons, Step.before, Function.comp_apply, map_bind,
      bind_map_left, φ.translate_bind, ih]

/-- Apart from the builder's name the translated sequencer makes the translated computation. -/
theorem translate_build [Reports m] (ks : List (El t → m (b.Comp t))) (start : b.Comp t)
    (finish : El t → m (El t)) :
    (Sequencer.ofBinds (ks.map fun k u => φ.translate <$> k u)).build (φ.translate start) finish =
      (do
        report (.building b'.name ks.length)
        φ.translate <$> b.bind start ((Sequencer.ofBinds ks).continuation finish)) := by
  rw [Sequencer.build_ofBinds, List.length_map]
  refine bind_congr fun _ => ?_
  rw [φ.translate_bind]
  exact congrArg _ (funext fun u => (φ.translate_continuation ks finish u).symm)

end Translation

end Builder

/-! ## Optional values as sequences -/

/-- No value, or the one. -/
def Sequence.ofOption {α : Type} : Option α → Sequence α
  | none => .empty
  | some a => .singleton a

variable [LawfulMonad m]

/-- An optional value is a sequence of at most one value. -/
def Builder.Translation.ofOption :
    Translation (Builder.optional m El) (Builder.sequence m El) where
  translate := Sequence.ofOption
  translate_pure _ := rfl
  translate_zero := rfl
  translate_bind {s t} (o : Option (El s)) k := by
    cases o with
    | none =>
      refine (map_pure _ _).trans ?_
      exact (Sequence.flatMap_empty fun u => Sequence.ofOption <$> k u).symm
    | some u => exact (Sequence.flatMap_singleton u fun u => Sequence.ofOption <$> k u).symm

/-- **Optional values are sequences of at most one value.** The builder of optional values can be
exchanged for that of sequences: to read the result as a sequence is to read everything that goes
into it as a sequence. Both sides of each equation are one act of the host, with every call of a
closure and every panic. So it is with a sequencer of bind steps, whatever their number: apart from
the notice, which names the builder, the one sequencer does what the other does, and its result is
the translated one. -/
theorem Sequence.ofOption_respects [Reports m] :
    (∀ {t : ι} (u : El t),
      ofOption ((Builder.optional m El).pure u) = (Builder.sequence m El).pure u) ∧
    (∀ {t : ι}, ofOption ((Builder.optional m El).zero (t := t)) = (Builder.sequence m El).zero) ∧
    (∀ {s t : ι} (c : Option (El s)) (k : El s → m (Option (El t))),
      ofOption <$> (Builder.optional m El).bind c k =
        (Builder.sequence m El).bind (ofOption c) fun u => ofOption <$> k u) ∧
    (∀ {s t : ι} (c : Option (El s)) (f : El s → m (El t)),
      ofOption <$> (Builder.optional m El).map c f = (Builder.sequence m El).map (ofOption c) f) ∧
    (∀ {s t : ι} (first : Option (El s)) (second : Option (El t)),
      ofOption <$> (Builder.optional m El).andThen first second =
        (Builder.sequence m El).andThen (ofOption first) (ofOption second)) ∧
    ∀ {t : ι} (ks : List (El t → m (Option (El t)))) (start : Option (El t))
      (finish : El t → m (El t)),
      (Sequencer.ofBinds ks : Sequencer (Builder.optional m El) t).build start finish = (do
        report (.building "OptionBuilder" ks.length)
        (Builder.optional m El).bind start ((Sequencer.ofBinds ks).continuation finish)) ∧
      (Sequencer.ofBinds (ks.map fun k u => ofOption <$> k u) :
          Sequencer (Builder.sequence m El) t).build (ofOption start) finish = (do
        report (.building "SequenceBuilder" ks.length)
        ofOption <$>
          (Builder.optional m El).bind start ((Sequencer.ofBinds ks).continuation finish)) := by
  let φ := @Builder.Translation.ofOption m _ ι El _
  refine ⟨φ.translate_pure, φ.translate_zero, φ.translate_bind, φ.translate_map,
    φ.translate_andThen, fun ks start finish => ⟨?_, φ.translate_build ks start finish⟩⟩
  exact Sequencer.build_ofBinds (b := Builder.optional m El) ks start finish

section
open Script

/-- Counts its calls, and halves what is even. -/
def halve (u : Int64) : Act (Option Int64) := do
  let _ ← Act.tick "halve"
  return if u % 2 = 0 then some (u / 2) else none

/-- Twelve is halved twice, and the third call finds that three is odd. -/
theorem halve_translated : ∃ w w',
    (Sequencer.ofBinds [halve, halve, halve, halve] :
      Sequencer (Builder.optional Act Script.El) .int).build (some (12 : Int64)) pure
        Session.fresh = .ok (none : Option Int64) w ∧
    (Sequencer.ofBinds ([halve, halve, halve, halve].map fun k u => Sequence.ofOption <$> k u) :
      Sequencer (Builder.sequence Act Script.El) .int).build (Sequence.ofOption (some (12 : Int64)))
        pure Session.fresh = .ok (⟨[]⟩ : Sequence Int64) w' ∧
    w.counters.find? "halve" = some 3 ∧ w'.counters = w.counters := by
  have hrespects := @Sequence.ofOption_respects Act _ Ty Script.El _ _
  have hbuild := hrespects.2.2.2.2.2 (t := .int) [halve, halve, halve, halve] (some (12 : Int64))
    pure
  exact ⟨_, _, (congrFun hbuild.1 Session.fresh).trans rfl,
    (congrFun hbuild.2 Session.fresh).trans rfl, rfl, rfl⟩

end

end Workflow
