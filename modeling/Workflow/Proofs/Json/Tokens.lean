import Workflow.Json.Reader
import Workflow.Json.Writer

/-!
# Written tokens are read

A reader takes what was written off the front of a text, and the text goes on behind it. A word and
a string say themselves where they end. A number does not: it ends where the text goes on with a
character that cannot belong to it (`Apart`), which is so behind every value in an array.

* `behind_append`: a word.
* `numeral_toDigits`: the decimal digits of a number of 64 bits. They do not start with a zero that
  says nothing (`toDigits_head`), and none of them is too many to be counted (`absorb_eq`).
* `text_flatMap_escaped`: the characters of a string, each by itself or by its escape
  (`characters_escaped`).
-/

namespace Workflow.Json

/-! ## Words -/

theorem behind_append (word rest : List Char) : behind word (word ++ rest) = .ok rest := by
  induction word with
  | nil => simp [behind]
  | cons w word ih => simp [behind, ih]

/-! ## Numbers -/

/-- No number goes on with this text. -/
def Apart (rest : List Char) : Prop :=
  ∀ c ∈ rest.head?, c.isDigit = false ∧ c ≠ '.' ∧ c ≠ 'e' ∧ c ≠ 'E'

/-- The marks of an array end a number. -/
theorem apart_mark {mark : Char} (h : mark ∈ [',', ']']) (rest : List Char) :
    Apart (mark :: rest) := by
  intro c hc
  cases hc
  have hmark : mark = ',' ∨ mark = ']' := by simpa using h
  rcases hmark with rfl | rfl <;> decide

theorem digits_append {ds rest : List Char} (hne : ds ≠ []) (hds : ∀ c ∈ ds, c.isDigit = true)
    (hrest : Apart rest) : digits (ds ++ rest) = .ok (ds, rest) := by
  have htake : (ds ++ rest).takeWhile Char.isDigit = ds := by
    rw [List.takeWhile_append_of_pos hds]
    cases rest with
    | nil => simp
    | cons c rest => simp [(hrest c rfl).1]
  have hdrop : (ds ++ rest).dropWhile Char.isDigit = rest := by
    rw [List.dropWhile_append_of_pos hds]
    cases rest with
    | nil => rfl
    | cons c rest => simp [(hrest c rfl).1]
  unfold digits
  rw [htake, hdrop]
  cases ds with
  | nil => exact absurd rfl hne
  | cons d ds => rfl

theorem le_ofDigitChars (ds : List Char) (n : Nat) : n ≤ Nat.ofDigitChars 10 ds n := by
  induction ds generalizing n with
  | nil => simp
  | cons d ds ih =>
    rw [Nat.ofDigitChars_cons]
    have := ih (10 * n + (d.toNat - '0'.toNat))
    omega

/-- If 64 bits hold the whole number, they hold what is there before each of its digits. -/
theorem absorb_eq (ds : List Char) (n : Nat) (h : Nat.ofDigitChars 10 ds n < Nat.pow 2 64) :
    absorb n ds = (Nat.ofDigitChars 10 ds n, ds.length) := by
  induction ds generalizing n with
  | nil => simp [absorb]
  | cons d ds ih =>
    rw [Nat.ofDigitChars_cons] at h ⊢
    have hstep : n * 10 + (d.toNat - 48) = 10 * n + (d.toNat - '0'.toNat) := by
      rw [Nat.mul_comm]
      rfl
    have hle := le_ofDigitChars ds (10 * n + (d.toNat - '0'.toNat))
    rw [absorb, hstep, if_pos (by omega), ih _ h]
    rfl

/-- Only zero is written with a zero in front. -/
theorem toDigits_head (n : Nat) (h : (Nat.toDigits 10 n).head? = some '0') : n = 0 := by
  induction n using Nat.strongRecOn with
  | ind n ih =>
    by_cases hn : n < 10
    · rw [Nat.toDigits_of_lt_base hn] at h
      have hzero := congrArg Char.toNat (Option.some.inj h)
      rw [Nat.toNat_digitChar_of_lt_ten hn] at hzero
      simp at hzero
      omega
    · rw [Nat.toDigits_of_base_le (by omega) (by omega), List.head?_append,
        List.head?_eq_some_head Nat.toDigits_ne_nil, Option.some_or,
        ← List.head?_eq_some_head] at h
      have := ih (n / 10) (by omega) h
      omega

theorem numeral_toDigits (negative : Bool) {n : Nat} (hn : n < Nat.pow 2 64) {rest : List Char}
    (hrest : Apart rest) : numeral negative (Nat.toDigits 10 n ++ rest) =
      .ok (if negative then if n = 0 then .other else .whole (-n) else .whole n, rest) := by
  have hdigits : digits (Nat.toDigits 10 n ++ rest) = .ok (Nat.toDigits 10 n, rest) :=
    digits_append Nat.toDigits_ne_nil
      (fun c hc => Nat.isDigit_of_mem_toDigits (by omega) (by omega) hc) hrest
  have hvalue : Nat.ofDigitChars 10 (Nat.toDigits 10 n) 0 = n := Nat.ofDigitChars_ten_toDigits
  have habsorb : absorb 0 (Nat.toDigits 10 n) = (n, (Nat.toDigits 10 n).length) := by
    rw [absorb_eq _ _ (by rw [hvalue]; exact hn), hvalue]
  have hzero : ¬ ((Nat.toDigits 10 n).head? = some '0' && (Nat.toDigits 10 n).length != 1) := by
    intro h
    simp only [Bool.and_eq_true, decide_eq_true_eq, bne_iff_ne] at h
    obtain ⟨hhead, hlength⟩ := h
    cases toDigits_head n hhead
    exact hlength rfl
  rw [numeral, hdigits]
  show (if (Nat.toDigits 10 n).head? = some '0' && (Nat.toDigits 10 n).length != 1 then _
    else _) = _
  rw [if_neg hzero, habsorb]
  -- what follows decides whether the number goes on with a fraction or an exponent
  cases rest with
  | nil => cases negative <;> simp
  | cons c rest =>
    obtain ⟨-, hpoint, he, hE⟩ := hrest c rfl
    split
    · next hrest' =>
      cases hrest'
      exact absurd rfl hpoint
    · cases negative <;> simp [he, hE]

/-! ## Strings -/

theorem hexValue_digitChar : ∀ d < 16, hexValue (Nat.digitChar d) = some d := by decide

theorem hexUnit_digitChars {a b : Nat} (ha : a < 16) (hb : b < 16) (rest : List Char) :
    hexUnit ('0' :: '0' :: Nat.digitChar a :: Nat.digitChar b :: rest) =
      .ok (16 * a + b, rest) := by
  have hzero : hexValue '0' = some 0 := rfl
  simp only [hexUnit, hzero, hexValue_digitChar a ha, hexValue_digitChar b hb]
  rw [show ((0 * 16 + 0) * 16 + a) * 16 + b = 16 * a + b by omega]

theorem unescaped_control {c : Char} (h : c.toNat < 0x20) (rest : List Char) :
    unescaped ('u' :: '0' :: '0' :: Nat.digitChar (c.toNat / 16) ::
      Nat.digitChar (c.toNat % 16) :: rest) = .ok (c, rest) := by
  show unicode _ = _
  rw [unicode, hexUnit_digitChars (by omega) (by omega), Nat.div_add_mod]
  -- a control is one unit, and no half of a pair
  show (if _ then _ else _) = _
  rw [if_neg (by simp; omega), if_pos (by simp; omega), Char.ofNat_toNat]

/-- A character in front of what is read of a string. -/
def putFront (c : Char) (p : List Char × List Char) : List Char × List Char := (c :: p.1, p.2)

theorem characters_plain {c : Char} (hquote : c ≠ '"') (hslash : c ≠ '\\') (h : ¬ c.toNat < 0x20)
    (fuel : Nat) (cs : List Char) :
    characters (fuel + 1) (c :: cs) = putFront c <$> characters fuel cs := by
  rw [characters, if_neg hquote, if_neg hslash, if_neg h, map_eq_pure_bind]
  rfl

theorem characters_slash {cs rest : List Char} {c : Char} (h : unescaped cs = .ok (c, rest))
    (fuel : Nat) :
    characters (fuel + 1) ('\\' :: cs) = putFront c <$> characters fuel rest := by
  rw [characters, if_neg (by decide), if_pos rfl, h, map_eq_pure_bind]
  rfl

/-- What stands for a character is read as this character. -/
theorem characters_escaped (c : Char) (fuel : Nat) (rest : List Char) :
    characters (fuel + 1) (escaped c ++ rest) = putFront c <$> characters fuel rest := by
  unfold escaped
  -- the seven characters that have a letter by the backslash, or themselves
  iterate 7
    split
    · subst_vars
      exact characters_slash rfl fuel
  split
  · next h => exact characters_slash (unescaped_control h rest) fuel
  · exact characters_plain ‹_› ‹_› ‹_› fuel rest

theorem characters_flatMap_escaped (s rest : List Char) {fuel : Nat} (hfuel : s.length < fuel) :
    characters fuel (s.flatMap escaped ++ '"' :: rest) = .ok (s, rest) := by
  induction s generalizing fuel with
  | nil =>
    obtain ⟨fuel, rfl⟩ := Nat.exists_eq_add_of_lt hfuel
    simp [characters]
  | cons c s ih =>
    obtain ⟨fuel, rfl⟩ := Nat.exists_eq_add_of_lt hfuel
    rw [List.flatMap_cons, List.append_assoc, characters_escaped, ih]
    · rfl
    · simp only [List.length_cons]
      omega

theorem length_le_flatMap_escaped (s : List Char) : s.length ≤ (s.flatMap escaped).length := by
  induction s with
  | nil => simp
  | cons c s ih =>
    have hpos : 0 < (escaped c).length := by
      unfold escaped
      repeat' split
      all_goals simp
    simp only [List.flatMap_cons, List.length_append, List.length_cons]
    omega

theorem text_flatMap_escaped (s : String) (rest : List Char) :
    text (s.toList.flatMap escaped ++ '"' :: rest) = .ok (s, rest) := by
  have hfuel := length_le_flatMap_escaped s.toList
  rw [text, characters_flatMap_escaped]
  · exact congrArg (fun s => Except.ok (s, rest)) s.ofList_toList
  · simp only [List.length_append, List.length_cons]
    omega

end Workflow.Json
