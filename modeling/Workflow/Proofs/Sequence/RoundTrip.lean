import Workflow.Proofs.Json.Laws

/-!
# A written sequence is read again

Lists of items that a codec takes exactly are taken exactly (`Codec.list_exact`), if the format
writes and reads arrays as it is said to. The proof follows the list: what is written of it, behind
its opening bracket, is a text of items with a mark behind each (`Codec.written_items`). A sequence
is its list, so the same holds of it, and of sequences of sequences (`Sequence.codec_exact`).

* `Sequence.text_laws`: the text of a sequence is the array of its elements' own texts, the sequence
  is read from it, and an object is no sequence, whatever its fields are.
* `El.exact`: in JSON, the elements of scripts are of the kind that the laws ask for.
-/

namespace Workflow

variable {Error α : Type} {format : Format Error} {item : Codec Error α}

/-! ## Arrays -/

/-- The codec of lists. -/
def Codec.list (format : Format Error) (item : Codec Error α) : Codec Error (List α) where
  write := format.writeList item.write
  read := format.readList item.read

section
variable (hwrites : format.WritesArrays item.write)
include hwrites

/-- Written items stand between brackets, with commas between them. -/
theorem Codec.writeList_eq (as : List α) : format.writeList item.write as =
    '[' :: ([','].intercalate (as.map item.write) ++ [']']) := by
  cases as with
  | nil => exact hwrites.empty
  | cons a as =>
    induction as generalizing a with
    | nil => simpa using hwrites.one a
    | cons b as ih =>
      rw [hwrites.more a (b :: as) _ (ih b) (List.cons_ne_nil b as)]
      simp

theorem Codec.starts_writeList (as : List α) : StartsItem (format.writeList item.write as) :=
  ⟨_, _, writeList_eq hwrites as, by decide, by decide⟩

variable (hitem : item.Exact)
include hitem

/-- What is written of a list, behind its opening bracket. -/
theorem Codec.written_items (a : α) (as : List α) :
    ∃ text, format.writeList item.write (a :: as) = '[' :: text ∧
      ∀ rest, Format.Items item.read (text ++ rest) (a :: as) rest := by
  induction as generalizing a with
  | nil =>
    refine ⟨_, hwrites.one a, fun rest => ?_⟩
    rw [List.append_assoc]
    exact .last (hitem.starts a) (hitem.takes a (by decide) rest)
  | cons b as ih =>
    obtain ⟨text, htext, hitems⟩ := ih b
    refine ⟨_, hwrites.more a (b :: as) text htext (List.cons_ne_nil b as), fun rest => ?_⟩
    rw [List.append_assoc]
    exact .more (hitem.starts a) (hitem.takes a (by decide) _) (hitems rest)

variable (hreads : format.ReadsArrays item.read)
include hreads

/-- A list is taken off the front of a text whatever follows. -/
theorem Codec.readList_writeList (as : List α) (rest : List Char) :
    format.readList item.read (format.writeList item.write as ++ rest) = .ok (as, rest) := by
  cases as with
  | nil =>
    rw [hwrites.empty]
    exact hreads.empty rest
  | cons a as =>
    obtain ⟨text, htext, hitems⟩ := written_items hwrites hitem a as
    rw [htext]
    exact hreads.items (hitems rest)

theorem Codec.list_exact : (Codec.list format item).Exact where
  starts as := starts_writeList hwrites as
  takes as mark _ rest := readList_writeList hwrites hitem hreads as (mark :: rest)

theorem Sequence.read_write (s : Sequence α) (rest : List Char) :
    (codec format item).read ((codec format item).write s ++ rest) = .ok (s, rest) := by
  have h := Codec.readList_writeList hwrites hitem hreads s.elements rest
  show (format.readList item.read (format.writeList item.write s.elements ++ rest) >>= _) = _
  rw [h]
  rfl

theorem Sequence.codec_exact : (codec format item).Exact where
  starts s := Codec.starts_writeList hwrites s.elements
  takes s mark _ rest := read_write hwrites hitem hreads s (mark :: rest)

end

/-- An object is refused as soon as it opens, which may be behind blanks. -/
theorem Format.ReadsArrays.readList_object {read : Format.Reader Error α}
    (hreads : format.ReadsArrays read) {cs : List Char}
    (h : cs.find? (fun c => c ∉ blanks) = some '\x7b') :
    ∃ e, format.readList read cs = .error e ∧ format.isData e = true := by
  have hclass : (format.readList read cs).mapError format.isData = .error true := by
    induction cs with
    | nil => cases h
    | cons c cs ih =>
      by_cases hc : c ∈ blanks
      · rw [hreads.blank hc]
        exact ih (by simpa [hc] using h)
      · have heq : c = '\x7b' := by simpa [hc] using h
        rw [heq]
        exact hreads.object cs
  cases hread : format.readList read cs with
  | ok p =>
    rw [hread] at hclass
    cases hclass
  | error e =>
    rw [hread] at hclass
    exact ⟨e, rfl, Except.error.inj hclass⟩

/-! ## Elements -/

namespace Script.El
open Json

theorem reads_int64 (n : Int64) : Reads readInt64 (Datum.writeInt64 n) n := by
  have h := (reads_int n.minValue_le_toInt n.toInt_le (by decide)).pack Int64.ofInt
  rwa [Int64.ofInt_toInt] at h

theorem reads_int32 (n : Int32) : Reads readInt32 (writeInt n.toInt) n := by
  have h := (reads_int n.minValue_le_toInt n.toInt_le (by decide)).pack Int32.ofInt
  rwa [Int32.ofInt_toInt] at h

theorem reads_option (n : Option Int64) :
    Reads (readOption readInt64) (write (t := .option) n) n := by
  cases n with
  | none => exact reads_none readInt64
  | some n =>
    refine (reads_int64 n).present ?_
    obtain ⟨c, cs, h, rfl | hc⟩ := writeInt_eq_cons n.toInt
    · simp [Datum.writeInt64, h]
    · simpa [Datum.writeInt64, h] using ne_of_isDigit hc rfl

theorem exact_int64 : (Codec.mk Datum.writeInt64 readInt64).Exact := exact_of_reads reads_int64

theorem exact : (t : Ty) → (codec t).Exact
  | .unit => exact_of_reads fun () => reads_unit
  | .bool => exact_of_reads reads_bool
  | .int => exact_int64
  | .int32 => exact_of_reads reads_int32
  | .text => exact_of_reads reads_text
  | .pair => exact_of_reads fun (a, b) => (reads_int64 a).pair (reads_int64 b)
  | .list => Codec.list_exact (format_writesArrays _) exact_int64 (format_readsArrays _)
  | .option => exact_of_reads reads_option
  | .sequence => Sequence.codec_exact (format_writesArrays _) exact_int64 (format_readsArrays _)

end Script.El

/-! ## Sequences -/

namespace Sequence

/-- How sequences stand in a text format. -/
structure TextLaws (format : Format Error) (item : Codec Error α) : Prop where
  /-- The text of a sequence is read as the sequence. -/
  parse_print (s : Sequence α) : parse format item (print format item s) = .ok s
  /-- No two sequences have one text. -/
  print_injective : Function.Injective (print format item)
  /-- The text is an array: the elements' own texts in their order, and nothing around them. -/
  print_eq (s : Sequence α) : print format item s =
    String.ofList ('[' :: ([','].intercalate (s.elements.map item.write) ++ [']']))
  /-- A text that opens an object holds a value of another type, whatever follows. -/
  parse_object (text : String)
    (h : text.toList.find? (fun c => c ∉ [' ', '\n', '\t', '\r']) = some '\x7b') :
    ∃ e, parse format item text = .error e ∧ format.isData e = true

/-- **Sequences survive as text.** Of the format it is asked that it writes and reads arrays item by
item, and of the items that the reader takes what the writer wrote. -/
theorem text_laws (hwrites : format.WritesArrays item.write) (hreads : format.ReadsArrays item.read)
    (htexts : format.Texts (codec format item)) (hitem : item.Exact) : TextLaws format item := by
  have hprint (s : Sequence α) :
      print format item s = String.ofList ((codec format item).write s) := htexts.print_eq s
  have hparse (s : Sequence α) : parse format item (print format item s) = .ok s := by
    have hread := read_write hwrites hitem hreads s []
    rw [List.append_nil] at hread
    exact htexts.parse_all (by rw [hprint, String.toList_ofList, hread])
  constructor
  case parse_print => exact hparse
  case print_injective =>
    intro s s' h
    have hs := hparse s
    rw [h, hparse s'] at hs
    exact (Except.ok.inj hs).symm
  case print_eq =>
    intro s
    rw [hprint]
    exact congrArg String.ofList (Codec.writeList_eq hwrites s.elements)
  case parse_object =>
    intro text h
    obtain ⟨e, hlist, hdata⟩ := hreads.readList_object h
    refine ⟨e, htexts.parse_error ?_, hdata⟩
    show (format.readList item.read text.toList >>= _) = _
    rw [hlist]
    rfl

/-- A text of a quote, a backslash and two controls, next to the least whole number, which has no
positive counterpart. An object with a field for the elements is no sequence of numbers. -/
theorem escapes_reread :
    parse Json.format (Script.El.codec .text)
        (print Json.format (Script.El.codec .text) ⟨["\"\\\n\x00", ""]⟩) =
      .ok ⟨["\"\\\n\x00", ""]⟩ ∧
    print Json.format (Script.El.codec .option) ⟨[some Int64.minValue, none]⟩ =
      "[-9223372036854775808,null]" ∧
    parse Json.format (Script.El.codec .option) "[-9223372036854775808,null]" =
      .ok ⟨[some Int64.minValue, none]⟩ ∧
    ∃ e, parse Json.format (Script.El.codec .int) " \x7b\"elements\":[1]\x7d" = .error e ∧
      Json.format.isData e = true := by
  have laws (t : Script.Ty) : TextLaws Json.format (Script.El.codec t) :=
    text_laws (Json.format_writesArrays _) (Json.format_readsArrays _) (Json.format_texts _)
      (Script.El.exact t)
  have hwritten : print Json.format (Script.El.codec .option) ⟨[some Int64.minValue, none]⟩ =
      "[-9223372036854775808,null]" := by rfl
  refine ⟨(laws .text).parse_print _, hwritten, ?_, (laws .int).parse_object _ (by rfl)⟩
  rw [← hwritten]
  exact (laws .option).parse_print _

end Sequence

end Workflow
