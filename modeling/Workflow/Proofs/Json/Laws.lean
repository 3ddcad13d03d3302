import Workflow.Proofs.Json.Tokens
import Workflow.Script.Datum

/-!
# JSON keeps the laws of formats

`Reads` is the law that a reader and a text keep for a value: in front of everything that may follow
a value, the reader takes the text, no more and no less. A word, a number and a string keep it, and
so do values that are packed (`Reads.pack`), optional (`Reads.present`) or a pair (`Reads.pair`) of
such that do. Arrays are another matter: the reader and the writer of arrays have the properties
that a format is asked for, whatever their items are.

* `format_writesArrays`, `format_readsArrays`, `format_texts`: the properties of the format.
* `exact_of_reads`: values that keep the law make an exact codec.
-/

namespace Workflow.Json

/-! ## What a reader takes -/

/-- The reader takes the whole of `text`, and nothing behind it, as `a`. -/
structure Reads {α : Type} (read : Reader α) (text : List Char) (a : α) : Prop where
  begins : StartsItem text
  takes : ∀ rest, Apart rest → read (text ++ rest) = .ok (a, rest)

theorem isBlank_eq (c : Char) : isBlank c = decide (c ∈ blanks) := by
  simp [isBlank, blanks, Bool.beq_eq_decide_eq, Bool.or_assoc]

theorem skipBlank_token {c : Char} (h : c ∉ blanks) (cs : List Char) :
    skipBlank (c :: cs) = c :: cs := by
  simp [skipBlank, isBlank_eq, h]

theorem skipBlank_blank {c : Char} (h : c ∈ blanks) (cs : List Char) :
    skipBlank (c :: cs) = skipBlank cs := by
  simp [skipBlank, isBlank_eq, h]

section
variable {α β : Type} {read : Reader α} {text : List Char} {a : α}

/-- There is no blank to skip in front of an item. -/
theorem skipBlank_append (h : StartsItem text) (rest : List Char) :
    skipBlank (text ++ rest) = text ++ rest := by
  obtain ⟨c, cs, rfl, hblank, -⟩ := h
  exact skipBlank_token hblank (cs ++ rest)

/-- Where an item stands, neither the text ends nor an array. -/
theorem goesOn (h : StartsItem text) (rest : List Char) :
    text ++ rest ≠ [] ∧ ∀ rest', text ++ rest ≠ ']' :: rest' := by
  obtain ⟨c, cs, rfl, -, hbracket⟩ := h
  exact ⟨List.cons_ne_nil c _, fun rest' heq => hbracket (List.cons.inj heq).1⟩

/-- A value that is read as another one, and then packed. -/
theorem Reads.pack (h : Reads read text a) (pack : α → β) :
    Reads (fun cs => do
      let (a, rest) ← read cs
      return (pack a, rest)) text (pack a) where
  begins := h.begins
  takes rest hrest := by
    show (read (text ++ rest) >>= _) = _
    rw [h.takes rest hrest]
    rfl

end

/-! ## Words, numbers and strings -/

/-- A word is known by its first letter. -/
theorem reads_word {α : Type} {read : Reader α} {c : Char} {word : List Char} {a : α}
    (hc : c ∉ blanks ∧ c ≠ ']')
    (h : ∀ rest, read (c :: rest) = do return (a, ← behind word rest)) :
    Reads read (c :: word) a where
  begins := ⟨c, word, rfl, hc⟩
  takes rest _ := by
    rw [List.cons_append, h, behind_append]
    rfl

theorem reads_unit : Reads readUnit writeNull () := reads_word (by decide) fun _ => rfl

theorem reads_bool : (b : Bool) → Reads readBool (writeBool b) b
  | true => reads_word (by decide) fun _ => rfl
  | false => reads_word (by decide) fun _ => rfl

/-- The first digit of a number. -/
theorem toDigits_eq_cons (n : Nat) :
    ∃ d ds, Nat.toDigits 10 n = d :: ds ∧ d.isDigit = true := by
  cases h : Nat.toDigits 10 n with
  | nil => exact absurd h Nat.toDigits_ne_nil
  | cons d ds =>
    have hd : d ∈ Nat.toDigits 10 n := by simp [h]
    exact ⟨d, ds, rfl, Nat.isDigit_of_mem_toDigits (by omega) (by omega) hd⟩

theorem ne_of_isDigit {c d : Char} (hc : c.isDigit = true) (hd : d.isDigit = false) : c ≠ d := by
  rintro rfl
  simp [hc] at hd

theorem notMem_blanks_of_isDigit {c : Char} (h : c.isDigit = true) : c ∉ blanks := by
  have := ne_of_isDigit h (show ' '.isDigit = false from rfl)
  have := ne_of_isDigit h (show '\n'.isDigit = false from rfl)
  have := ne_of_isDigit h (show '\t'.isDigit = false from rfl)
  have := ne_of_isDigit h (show '\r'.isDigit = false from rfl)
  simp [blanks, *]

/-- An integer starts with its sign or with a digit. -/
theorem writeInt_eq_cons (n : Int) :
    ∃ c cs, writeInt n = c :: cs ∧ (c = '-' ∨ c.isDigit = true) := by
  unfold writeInt
  split
  · exact ⟨_, _, rfl, .inl rfl⟩
  · obtain ⟨d, ds, hds, hd⟩ := toDigits_eq_cons n.natAbs
    exact ⟨d, ds, hds, .inr hd⟩

/-- An integer is read by its bounds, which 64 bits hold. -/
theorem reads_int {low high n : Int} (hlow : low ≤ n) (hhigh : n ≤ high)
    (hbounds : low.natAbs < Nat.pow 2 64 ∧ high.natAbs < Nat.pow 2 64) :
    Reads (readInt low high) (writeInt n) n where
  begins := by
    obtain ⟨c, cs, h, rfl | hc⟩ := writeInt_eq_cons n
    · exact ⟨_, _, h, by decide, by decide⟩
    · exact ⟨_, _, h, notMem_blanks_of_isDigit hc, ne_of_isDigit hc rfl⟩
  takes rest hrest := by
    have hwithin : (low ≤ n && n ≤ high) = true := by simp [hlow, hhigh]
    have hsize : n.natAbs < Nat.pow 2 64 := by omega
    unfold writeInt
    split
    · next hneg =>
      have hzero : n.natAbs ≠ 0 := by omega
      have habs : -(n.natAbs : Int) = n := by omega
      show (numeral true (Nat.toDigits 10 n.natAbs ++ rest) >>= _) = _
      rw [numeral_toDigits true hsize hrest, if_pos rfl, if_neg hzero, habs]
      show (if _ then _ else _) = _
      rw [if_pos hwithin]
    · next hneg =>
      have habs : (n.natAbs : Int) = n := by omega
      have hnumeral := numeral_toDigits false hsize hrest
      obtain ⟨d, ds, hds, hd⟩ := toDigits_eq_cons n.natAbs
      rw [hds, List.cons_append] at hnumeral ⊢
      rw [readInt, skipBlank_token (notMem_blanks_of_isDigit hd)]
      split
      · next h => exact absurd (List.cons.inj h).1 (ne_of_isDigit hd rfl)
      · next h =>
        cases h
        rw [if_pos hd, hnumeral, if_neg (by decide), habs]
        show (if _ then _ else _) = _
        rw [if_pos hwithin]
      · next h => cases h

theorem reads_text (s : String) : Reads readText (writeText s) s where
  begins := ⟨_, _, rfl, by decide, by decide⟩
  takes rest _ := by
    show text (s.toList.flatMap escaped ++ ['"'] ++ rest) = _
    rw [List.append_assoc]
    exact text_flatMap_escaped s rest

/-! ## Options -/

theorem reads_none {α : Type} (item : Reader α) : Reads (readOption item) writeNull none :=
  reads_word (by decide) fun _ => rfl

/-- A present value is read as such where its text cannot be taken for `null`. -/
theorem Reads.present {α : Type} {item : Reader α} {text : List Char} {a : α}
    (h : Reads item text a) (hnull : text.head? ≠ some 'n') :
    Reads (readOption item) text (some a) where
  begins := h.begins
  takes rest hrest := by
    obtain ⟨c, cs, hc, -⟩ := h.begins
    rw [readOption, skipBlank_append h.begins]
    split
    · next heq => exact absurd heq (goesOn h.begins rest).1
    · next heq =>
      rw [hc, List.cons_append] at heq
      simp [hc, (List.cons.inj heq).1] at hnull
    · rw [h.takes rest hrest]
      rfl

/-! ## Arrays -/

theorem comma_append {text : List Char} (h : StartsItem text) (rest : List Char) :
    comma (text ++ rest) = .ok (text ++ rest) := by
  rw [comma, skipBlank_append h]
  split
  · next heq => exact absurd heq (goesOn h rest).1
  · next heq => exact absurd heq ((goesOn h rest).2 _)
  · rfl

theorem Reads.pair {α β : Type} {first : Reader α} {second : Reader β} {text₁ text₂ : List Char}
    {a : α} {b : β} (h₁ : Reads first text₁ a) (h₂ : Reads second text₂ b) :
    Reads (readPair first second) (writeArray [text₁, text₂]) (a, b) where
  begins := ⟨_, _, rfl, by decide, by decide⟩
  takes rest _ := by
    simp only [writeArray, afterFirst, List.cons_append, List.append_assoc, List.nil_append]
    rw [readPair, skipBlank_token (by decide)]
    split
    · next heq =>
      cases heq
      rw [skipBlank_append h₁.begins]
      split
      · next heq => exact absurd heq (goesOn h₁.begins _).1
      · next heq => exact absurd heq ((goesOn h₁.begins _).2 _)
      · rw [h₁.takes _ (apart_mark (by decide) (text₂ ++ ']' :: rest))]
        show (comma _ >>= fun cs => second cs >>= _) = _
        rw [comma_append h₂.begins]
        show (second _ >>= _) = _
        rw [h₂.takes _ (apart_mark (by decide) rest)]
        rfl
    · next heq => exact absurd rfl (heq _)

/-! ## The format -/

theorem format_writesArrays {α : Type} (write : α → List Char) : format.WritesArrays write where
  empty := rfl
  one _ := rfl
  more a as text h hmore := by
    cases as with
    | nil => exact absurd rfl hmore
    | cons b as =>
      cases h
      rfl

section
variable {α : Type} {read : Reader α}

/-- One more item behind its comma. -/
theorem moreItems_comma {text cs : List Char} {c : Char} {a : α} (hstart : StartsItem text)
    (h : read (text ++ c :: cs) = .ok (a, c :: cs)) (fuel : Nat) :
    moreItems read (fuel + 1) (',' :: (text ++ c :: cs)) = (do
      let (as, rest) ← moreItems read fuel (c :: cs)
      return (a :: as, rest)) := by
  show (comma _ >>= fun cs => read cs >>= _) = _
  rw [comma_append hstart]
  show (read _ >>= _) = _
  rw [h]
  rfl

/-- Every item takes at least its comma, so that a text as long as the fuel is read to its end. -/
theorem moreItems_items {cs rest : List Char} {as : List α} (h : Format.Items read cs as rest)
    (fuel : Nat) (hfuel : cs.length < fuel) :
    moreItems read (fuel + 1) (',' :: cs) = .ok (as, rest) := by
  induction h generalizing fuel with
  | last hstart h =>
    obtain ⟨fuel, rfl⟩ := Nat.exists_eq_add_of_lt hfuel
    rw [moreItems_comma hstart h]
    rfl
  | @more text cs rest a as hstart h hmore ih =>
    obtain ⟨fuel, rfl⟩ := Nat.exists_eq_add_of_lt hfuel
    rw [moreItems_comma hstart h, ih]
    · rfl
    · simp only [List.length_append, List.length_cons]
      omega

/-- An array that does not end where it opens. -/
theorem readList_opened {text cs : List Char} {c : Char} {a : α} (hstart : StartsItem text)
    (h : read (text ++ c :: cs) = .ok (a, c :: cs)) :
    readList read ('[' :: (text ++ c :: cs)) = (do
      let (as, rest) ← moreItems read (cs.length + 2) (c :: cs)
      return (a :: as, rest)) := by
  rw [readList, skipBlank_token (by decide)]
  split
  · next heq =>
    cases heq
    rw [skipBlank_append hstart]
    split
    · next heq => exact absurd heq (goesOn hstart _).1
    · next heq => exact absurd heq ((goesOn hstart _).2 _)
    · rw [h]
      rfl
  · next heq => exact absurd rfl (heq _)

theorem readList_items {cs rest : List Char} {as : List α} (h : Format.Items read cs as rest) :
    readList read ('[' :: cs) = .ok (as, rest) := by
  cases h with
  | last hstart h =>
    rw [readList_opened hstart h]
    rfl
  | more hstart h hmore =>
    rw [readList_opened hstart h, moreItems_items hmore _ (Nat.lt_succ_self _)]
    rfl

theorem format_readsArrays (read : Reader α) : format.ReadsArrays read where
  empty _ := rfl
  items h := readList_items h
  blank h cs := by
    show (readList read _).mapError _ = (readList read _).mapError _
    rw [readList, skipBlank_blank h]
    rfl
  object _ := rfl

end

theorem format_texts {α : Type} (codec : Codec Defect α) : format.Texts codec where
  print_eq _ := rfl
  parse_all h := by
    show parse codec.read _ = _
    rw [parse, h]
    rfl
  parse_error h := by
    show parse codec.read _ = _
    rw [parse, h]
    rfl

theorem exact_of_reads {α : Type} {codec : Codec Defect α}
    (h : ∀ a, Reads codec.read (codec.write a) a) : codec.Exact where
  starts a := (h a).begins
  takes a _ hmark rest := (h a).takes _ (apart_mark hmark rest)

end Workflow.Json
