import Mathlib.Algebra.BigOperators.Group.List.Basic
import Workflow.Block
import Workflow.Script.Session
import Workflow.Sequence

/-!
# Nested binds count through all choices

Binds of sequences inside each other pick one value from each sequence, in all ways. The innermost
value changes first, as the last digit does when one counts: the place of a result, written with a
digit for each sequence in the base of its length, says which values were picked (`ListsAll`).

Values that are yielded between two binds are recorded once for every choice made so far, in front
of the block of results that this choice has (`RecordsEach`).

Places are written in mixed bases by `digits`, and `Written` says what digits stand for.
-/

namespace Workflow

/-! ## Digits -/

/-- The digits stand for `p`. Each digit has a base of its own; the last one has weight one, and any
other the product of the bases behind it. -/
inductive Written : List Nat → List Nat → Nat → Prop where
  | nil : Written [] [] 0
  | cons {base d p : Nat} {bases ds : List Nat} (hd : d < base) (rest : Written bases ds p) :
    Written (base :: bases) (d :: ds) (d * bases.prod + p)

/-- Writes `p` in the bases. -/
def digits : List Nat → Nat → List Nat
  | [], _ => []
  | _ :: bases, p => p / bases.prod :: digits bases (p % bases.prod)

section
variable {bases ds : List Nat} {p : Nat}

/-- A number below the product of the bases can be written in them. No base is zero then. -/
theorem written_digits (hp : p < bases.prod) : Written bases (digits bases p) p := by
  induction bases generalizing p with
  | nil =>
    obtain rfl : p = 0 := by simpa using hp
    exact .nil
  | cons base bases ih =>
    rw [List.prod_cons] at hp
    -- a zero among the bases behind would leave nothing below the product
    have hbases : 0 < bases.prod := Nat.pos_of_mul_pos_left (Nat.zero_lt_of_lt hp)
    have hwritten := Written.cons ((Nat.div_lt_iff_lt_mul hbases).mpr hp)
      (ih (Nat.mod_lt p hbases))
    rwa [Nat.div_add_mod'] at hwritten

theorem Written.lt_prod (h : Written bases ds p) : p < bases.prod := by
  induction h with
  | nil => exact Nat.one_pos
  | @cons base d p bases ds hd _ ih =>
    calc
      d * bases.prod + p < d * bases.prod + bases.prod := Nat.add_lt_add_left ih _
      _ = (d + 1) * bases.prod := (Nat.succ_mul _ _).symm
      _ ≤ base * bases.prod := Nat.mul_le_mul_right _ hd
      _ = (base :: bases).prod := List.prod_cons.symm

end

/-! ## Blocks of one length -/

section
variable {α β : Type} {φ : α → List β} {n : Nat}

/-- The place `r` in the block `q`. -/
theorem getElem?_flatMap_of_length (hφ : ∀ a, (φ a).length = n) {l : List α} {q r : Nat} {a : α}
    (hq : l[q]? = some a) (hr : r < n) : (l.flatMap φ)[q * n + r]? = (φ a)[r]? := by
  induction l generalizing q with
  | nil => cases hq
  | cons a' l ih =>
    rw [List.flatMap_cons]
    cases q with
    | zero =>
      cases hq
      rw [Nat.zero_mul, Nat.zero_add, List.getElem?_append_left (by rw [hφ]; exact hr)]
    | succ q =>
      rw [Nat.succ_mul, Nat.add_right_comm, List.getElem?_append_right (by rw [hφ]; omega), hφ,
        Nat.add_sub_cancel]
      exact ih hq

theorem length_flatMap_of_length (hφ : ∀ a, (φ a).length = n) (l : List α) :
    (l.flatMap φ).length = l.length * n := by
  induction l with
  | nil => simp
  | cons a l ih =>
    rw [List.flatMap_cons, List.length_append, hφ, ih, List.length_cons, Nat.succ_mul, Nat.add_comm]

end

/-! ## Choices -/

variable {ι : Type} {El : ι → Type}

/-- Values that were picked, the first one in front. -/
abbrev Picks (El : ι → Type) := List (Σ s, El s)

/-- Sequences to pick from, one value from each. -/
abbrev Offers (El : ι → Type) := List (Σ s, Sequence (El s))

/-- The picked values stand in the offered sequences at the places `ds`. -/
inductive Picked : Offers El → List Nat → Picks El → Prop where
  | nil : Picked [] [] []
  | cons {s : ι} {offer : Sequence (El s)} {u : El s} {d : Nat} {offers : Offers El}
    {ds : List Nat} {picks : Picks El} (hd : offer.elements[d]? = some u)
    (rest : Picked offers ds picks) : Picked (⟨s, offer⟩ :: offers) (d :: ds) (⟨s, u⟩ :: picks)

namespace Offers

def sizes (offers : Offers El) : List Nat := offers.map fun offer => offer.2.length

/-- All ways to pick, those with the same first value side by side. -/
def choices : Offers El → List (Picks El)
  | [] => [[]]
  | ⟨s, offer⟩ :: offers => offer.elements.flatMap fun u => (choices offers).map (⟨s, u⟩ :: ·)

theorem length_choices (offers : Offers El) : (choices offers).length = (sizes offers).prod := by
  induction offers with
  | nil => rfl
  | cons offer offers ih =>
    rw [choices, length_flatMap_of_length fun u => List.length_map _, ih]
    rfl

theorem choices_append (front back : Offers El) : choices (front ++ back) =
    (choices front).flatMap fun picks => (choices back).map (picks ++ ·) := by
  induction front with
  | nil => simp [choices]
  | cons offer front ih =>
    simp [choices, ih, List.map_flatMap, List.flatMap_map, List.flatMap_assoc, Function.comp_def]

/-- The digits of its place say where a choice picks. -/
theorem getElem?_choices {offers : Offers El} {ds : List Nat} {p : Nat}
    (h : Written (sizes offers) ds p) :
    ∃ picks, Picked offers ds picks ∧ (choices offers)[p]? = some picks := by
  induction offers generalizing ds p with
  | nil =>
    cases h
    exact ⟨[], .nil, rfl⟩
  | cons offer offers ih =>
    obtain ⟨s, offer⟩ := offer
    cases h with
    -- the first digit is the number of the block, and the others are the place in it
    | @cons _ d p _ ds hd rest =>
      obtain ⟨picks, hpicks, hplace⟩ := ih rest
      have hoffer : offer.elements[d]? = some offer.elements[d] := List.getElem?_eq_getElem hd
      have hlength (u : El s) :
          ((choices offers).map (⟨s, u⟩ :: ·)).length = (sizes offers).prod := by
        rw [List.length_map, length_choices]
      refine ⟨_, .cons hoffer hpicks, ?_⟩
      refine (getElem?_flatMap_of_length hlength hoffer rest.lt_prod).trans ?_
      rw [List.getElem?_map, hplace, Option.map_some]

end Offers

/-! ## Blocks that pick and record -/

variable {m : Type → Type} [Monad m] {t : ι}

namespace Block

/-- Binds the offers inside each other. The environment keeps what is picked. -/
def picking (rest : Block (Builder.sequence m El) (Picks El) t) :
    Offers El → Block (Builder.sequence m El) (Picks El) t
  | [] => rest
  | ⟨s, offer⟩ :: offers =>
    .bind (fun _ => return offer) (fun u picks => picks ++ [⟨s, u⟩]) (picking rest offers)

/-- Yields the values of what was picked. -/
def recording (rest : Block (Builder.sequence m El) (Picks El) t) :
    List (Picks El → El t) → Block (Builder.sequence m El) (Picks El) t
  | [] => rest
  | value :: values =>
    .yield (Builder.sequence_merges m El) (fun picks => return value picks) (recording rest values)

section
variable [LawfulMonad m] {rest : Block (Builder.sequence m El) (Picks El) t}

theorem build_recording {picks : Picks El} {made : Sequence (El t)}
    (hrest : rest.build picks = return made) (values : List (Picks El → El t)) :
    (recording rest values).build picks =
      return (⟨values.map (· picks) ++ made.elements⟩ : Sequence (El t)) := by
  induction values with
  | nil => exact hrest
  | cons value values ih =>
    rw [recording, build, pure_bind, ih]
    exact pure_bind _ _

/-- What `rest` makes of the choices is lined up in the order of the choices. -/
theorem build_picking {made : Picks El → Sequence (El t)}
    (hrest : ∀ picks, rest.build picks = return made picks) (offers : Offers El)
    (picks : Picks El) : (picking rest offers).build picks =
      return (⟨(Offers.choices offers).flatMap fun more => (made (picks ++ more)).elements⟩ :
        Sequence (El t)) := by
  induction offers generalizing picks with
  | nil => simpa [picking, Offers.choices] using hrest picks
  | cons offer offers ih =>
    obtain ⟨s, offer⟩ := offer
    -- what follows is built in turn with each value in the environment
    change (pure offer >>= fun c : Sequence (El s) =>
      c.flatMap fun u => (picking rest offers).build (picks ++ [⟨s, u⟩])) = _
    simp only [ih, pure_bind]
    rw [Sequence.flatMap_of_pure]
    simp [Offers.choices, List.flatMap_assoc, List.flatMap_map]

end

/-- Returns what `tuple` makes of the values that are picked. -/
def listing (offers : Offers El) (tuple : Picks El → El t) :
    Block (Builder.sequence m El) (Picks El) t :=
  picking (.result fun picks => return tuple picks) offers

theorem build_listing [LawfulMonad m] (offers : Offers El) (tuple : Picks El → El t)
    (picks : Picks El) : (listing (m := m) offers tuple).build picks =
      return (⟨(Offers.choices offers).map fun more => tuple (picks ++ more)⟩ :
        Sequence (El t)) := by
  have hresult (picks : Picks El) :
      (Block.result fun picks => return tuple picks).build (b := Builder.sequence m El) picks =
        return Sequence.singleton (tuple picks) := map_pure _ _
  refine (build_picking hresult offers picks).trans ?_
  rw [List.map_eq_flatMap]
  rfl

end Block

/-! ## The list of all choices -/

section
variable (front back offers : Offers El) (tuple : Picks El → El t)
  (values : List (Picks El → El t)) (plain recorded : Sequence (El t))

/-- `plain` lists what `tuple` makes of all ways to pick from the offers. -/
structure ListsAll : Prop where
  length : plain.length = (Offers.sizes offers).prod
  /-- Every place is written in the sizes. -/
  written {p : Nat} (hp : p < plain.length) :
    Written (Offers.sizes offers) (digits (Offers.sizes offers) p) p
  /-- The digits of a place say which values make the element there. -/
  element {p : Nat} {ds : List Nat} (hp : Written (Offers.sizes offers) ds p) :
    ∃ picks, Picked offers ds picks ∧ plain.elements[p]? = some (tuple picks)

/-- `recorded` lists what `plain` does, and records the `values` of each choice from `front` before
what `plain` lists for it and all choices from `back`. -/
structure RecordsEach : Prop where
  /-- Every choice has its turn, and in it all values are recorded once. -/
  turns : recorded.elements = (Offers.choices front).flatMap fun picks =>
    values.map (· picks) ++ (Offers.choices back).map fun more => tuple (picks ++ more)
  /-- The list has grown by the values of all choices. -/
  length : recorded.length = plain.length + values.length * (Offers.sizes front).prod
  /-- The turns have the same length, so that the place of each is known. Behind the values come
  the elements that `plain` has for the choice. -/
  turn {q : Nat} {ds : List Nat} (hq : Written (Offers.sizes front) ds q) :
    ∃ picks, Picked front ds picks ∧
      (∀ k (hk : k < values.length),
        recorded.elements[q * (values.length + (Offers.sizes back).prod) + k]? =
          some (values[k] picks)) ∧
      ∀ r es, Written (Offers.sizes back) es r → ∃ more, Picked back es more ∧
        recorded.elements[q * (values.length + (Offers.sizes back).prod) + (values.length + r)]? =
          some (tuple (picks ++ more)) ∧
        plain.elements[q * (Offers.sizes back).prod + r]? = some (tuple (picks ++ more))

variable {front back offers tuple values}

theorem listsAll_choices : ListsAll offers tuple ⟨(Offers.choices offers).map tuple⟩ := by
  have hlength : ((Offers.choices offers).map tuple).length = (Offers.sizes offers).prod := by
    rw [List.length_map, Offers.length_choices]
  constructor
  case length => exact hlength
  case written => exact fun hp => written_digits (Nat.lt_of_lt_of_eq hp hlength)
  case element =>
    intro p ds hp
    obtain ⟨picks, hpicks, hplace⟩ := Offers.getElem?_choices hp
    refine ⟨picks, hpicks, ?_⟩
    rw [List.getElem?_map, hplace, Option.map_some]

theorem recordsEach_choices : RecordsEach front back tuple values
    ⟨(Offers.choices (front ++ back)).map tuple⟩
    ⟨(Offers.choices front).flatMap fun picks =>
      values.map (· picks) ++ (Offers.choices back).map fun more => tuple (picks ++ more)⟩ := by
  have hresults (picks : Picks El) :
      ((Offers.choices back).map fun more => tuple (picks ++ more)).length =
        (Offers.sizes back).prod := by
    rw [List.length_map, Offers.length_choices]
  have hturns (picks : Picks El) :
      (values.map (· picks) ++ (Offers.choices back).map fun more => tuple (picks ++ more)).length =
        values.length + (Offers.sizes back).prod := by
    rw [List.length_append, List.length_map, hresults]
  -- the plain list has the same blocks, without the values in front of them
  have hplain : (Offers.choices (front ++ back)).map tuple =
      (Offers.choices front).flatMap fun picks =>
        (Offers.choices back).map fun more => tuple (picks ++ more) := by
    simp [Offers.choices_append, List.map_flatMap, Function.comp_def]
  rw [hplain]
  constructor
  case turns => rfl
  case length =>
    rw [Sequence.length, Sequence.length, length_flatMap_of_length hturns,
      length_flatMap_of_length hresults, Offers.length_choices, Nat.mul_add, Nat.add_comm,
      Nat.mul_comm values.length]
  case turn =>
    intro q ds hq
    obtain ⟨picks, hpicks, hq⟩ := Offers.getElem?_choices hq
    refine ⟨picks, hpicks, fun k hk => ?_, fun r es hr => ?_⟩
    · rw [getElem?_flatMap_of_length hturns hq (Nat.lt_add_right _ hk),
        List.getElem?_append_left (by rwa [List.length_map]), List.getElem?_map,
        List.getElem?_eq_getElem hk, Option.map_some]
    · obtain ⟨more, hmore, hplace⟩ := Offers.getElem?_choices hr
      refine ⟨more, hmore, ?_, ?_⟩
      · rw [getElem?_flatMap_of_length hturns hq (Nat.add_lt_add_left hr.lt_prod _),
          List.getElem?_append_right (by rw [List.length_map]; omega), List.length_map,
          Nat.add_sub_cancel_left, List.getElem?_map, hplace, Option.map_some]
      · rw [getElem?_flatMap_of_length hresults hq hr.lt_prod, List.getElem?_map, hplace,
          Option.map_some]

end

/-- **Nested binds list all choices in the order of counting.** Binds of `front` and of `back`
inside each other make one element of every way to pick a value from each sequence. There are as
many as the product of the lengths, and the digits of a place in the bases of the lengths, the last
one changing fastest, say which values make the element at it. Yields between `front` and `back`
record their values once for each choice from `front`, just before the elements of that choice. -/
theorem Block.lists_all_choices [LawfulMonad m] (front back : Offers El) (tuple : Picks El → El t)
    (values : List (Picks El → El t)) : ∃ plain recorded : Sequence (El t),
    (listing (front ++ back) tuple).build [] = (return plain : m (Sequence (El t))) ∧
    (picking (recording (listing back tuple) values) front).build [] =
      (return recorded : m (Sequence (El t))) ∧
    ListsAll (front ++ back) tuple plain ∧
    RecordsEach front back tuple values plain recorded := by
  have hrecording (picks : Picks El) :=
    build_recording (build_listing (m := m) back tuple picks) values
  exact ⟨_, _, build_listing (front ++ back) tuple [], build_picking hrecording front [],
    listsAll_choices, recordsEach_choices⟩

section
open Script

/-- The sum of two numbers. -/
def summed : Picks Script.El → Int64
  | [⟨.int, u⟩, ⟨.int, v⟩] => u + v
  | _ => 0

/-- A number with its sign changed. -/
def negated : Picks Script.El → Int64
  | [⟨.int, u⟩] => -u
  | _ => 0

def ones : Offers Script.El := [⟨.int, ⟨[1, 2]⟩⟩]

def tens : Offers Script.El := [⟨.int, ⟨[10, 20, 30]⟩⟩]

/-- All sums of ones and tens, and the same with the negated ones recorded. -/
theorem sums_listed : ∃ plain recorded : Sequence Int64,
    (Block.listing (t := Ty.int) (ones ++ tens) summed).build [] =
      (return plain : Act (Sequence Int64)) ∧
    (Block.picking (t := Ty.int) (Block.recording (Block.listing tens summed) [negated])
      ones).build [] = (return recorded : Act (Sequence Int64)) ∧
    plain = ⟨[11, 21, 31, 12, 22, 32]⟩ ∧ recorded = ⟨[-1, 11, 21, 31, -2, 12, 22, 32]⟩ ∧
    recorded.length = plain.length + 1 * 2 ∧ Written [2, 3] [1, 1] 4 ∧
    ∃ picks, Picked (ones ++ tens) [1, 1] picks ∧ plain.elements[4]? = some (summed picks) := by
  obtain ⟨plain, recorded, hplain, hrecorded, hall, heach⟩ :=
    Block.lists_all_choices (m := Act) (t := Ty.int) ones tens summed [negated]
  have hsums : plain = ⟨[11, 21, 31, 12, 22, 32]⟩ := by
    cases congrFun hplain Session.fresh
    rfl
  have hturns : recorded = ⟨[-1, 11, 21, 31, -2, 12, 22, 32]⟩ :=
    congrArg Sequence.mk heach.turns
  have hfour : Written [2, 3] [1, 1] 4 := hall.written (p := 4) (by rw [hall.length]; decide)
  exact ⟨plain, recorded, hplain, hrecorded, hsums, hturns, heach.length, hfour,
    hall.element hfour⟩

end

end Workflow
