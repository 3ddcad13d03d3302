import Workflow.Sequence

/-!
# Sequences as text

A sequence is transparent: it stands in a text as the array of its elements, with nothing of its own
around it, and is read from an array (`Sequence.codec`). The format of the text is not part of this
project. A sequence uses no more of it than how it writes and reads an array of any items and a
whole text (`Format`), and of its elements no more than how they are written and read (`Codec`). A
format is therefore a parameter, and what it does is known from its description alone.

**What is relied on (hypotheses about the format).** Each is asked for the items at hand only.
* `Format.WritesArrays`: arrays are written compactly.
* `Format.ReadsArrays`: arrays are read item by item; an object is refused where it opens, as a
  value of another type; blanks in front do not matter.
* `Format.Texts`: a whole text is written and read as its one value is.
* `Codec.Exact`: the elements' reader takes what their writer wrote.

`Json.format` is one such format, and the elements of scripts are such elements.
-/

namespace Workflow

variable {Error α : Type}

/-- Takes a value off the front of a text, and answers the value and the rest. -/
abbrev Format.Reader (Error α : Type) := List Char → Except Error (α × List Char)

/-- The ways of a format with values of one type. -/
structure Codec (Error α : Type) where
  /-- The text of a value. -/
  write : α → List Char
  /-- Takes a value off the front of a text. -/
  read : Format.Reader Error α

/-- A text format with arrays. -/
structure Format (Error : Type) where
  /-- The text of an array, where items are written so. -/
  writeList {α : Type} (write : α → List Char) : List α → List Char
  /-- Takes an array off the front of a text, where items are read so. -/
  readList {α : Type} (read : Format.Reader Error α) : Format.Reader Error (List α)
  /-- A whole text that holds one value (`to_string`). -/
  print {α : Type} (write : α → List Char) : α → String
  /-- The one value that a whole text holds (`from_str`). -/
  parse {α : Type} (read : Format.Reader Error α) : String → Except Error α
  /-- Whether an error says that a value has another type than the wanted one (`is_data`). -/
  isData : Error → Bool

/-! ## Sequences -/

namespace Sequence

variable (format : Format Error) (item : Codec Error α)

/-- A sequence is written and read as its only field, the list of its elements.
mirrors effect/sequence:36-41 (`Sequence`, transparent) -/
def codec : Codec Error (Sequence α) where
  write s := format.writeList item.write s.elements
  read text := do
    let (elements, rest) ← format.readList item.read text
    return (⟨elements⟩, rest)

/-- The text of a sequence. -/
def print (s : Sequence α) : String := format.print (codec format item).write s

/-- The sequence that a text holds, or what is wrong with the text. -/
def parse (text : String) : Except Error (Sequence α) :=
  format.parse (codec format item).read text

end Sequence

/-! ## What is relied on -/

/-- The characters between tokens that say nothing. -/
def blanks : List Char := [' ', '\n', '\t', '\r']

/-- The text starts with a token, and this one does not close an array. -/
def StartsItem (text : List Char) : Prop := ∃ c cs, text = c :: cs ∧ c ∉ blanks ∧ c ≠ ']'

namespace Format

/-- Items and the marks behind them, up to the bracket that closes their array: the text, the items
as they are read, and what is behind the bracket. -/
inductive Items (read : Reader Error α) : List Char → List α → List Char → Prop
  | last {text rest : List Char} {a : α} (hstart : StartsItem text)
      (h : read (text ++ ']' :: rest) = .ok (a, ']' :: rest)) :
      Items read (text ++ ']' :: rest) [a] rest
  | more {text cs rest : List Char} {a : α} {as : List α} (hstart : StartsItem text)
      (h : read (text ++ ',' :: cs) = .ok (a, ',' :: cs)) (hmore : Items read cs as rest) :
      Items read (text ++ ',' :: cs) (a :: as) rest

variable (format : Format Error)

/-- Arrays are written without a blank: brackets around them, commas between the items. -/
structure WritesArrays (write : α → List Char) : Prop where
  empty : format.writeList write [] = ['[', ']']
  one (a : α) : format.writeList write [a] = '[' :: (write a ++ [']'])
  /-- What stands behind the first item is, but for its opening, the array of the other ones. -/
  more (a : α) (as : List α) (text : List Char) (h : format.writeList write as = '[' :: text)
    (hmore : as ≠ []) : format.writeList write (a :: as) = '[' :: (write a ++ ',' :: text)

/-- Arrays are read item by item, and nothing else is read as one. -/
structure ReadsArrays (read : Reader Error α) : Prop where
  empty (rest : List Char) : format.readList read ('[' :: ']' :: rest) = .ok ([], rest)
  items {cs rest : List Char} {as : List α} (h : Items read cs as rest) :
    format.readList read ('[' :: cs) = .ok (as, rest)
  /-- A blank in front changes no more than the place that an error names. -/
  blank {c : Char} (h : c ∈ blanks) (cs : List Char) :
    (format.readList read (c :: cs)).mapError format.isData =
      (format.readList read cs).mapError format.isData
  /-- A brace opens a value of another type, whatever its fields are. -/
  object (cs : List Char) :
    (format.readList read ('\x7b' :: cs)).mapError format.isData = .error true

/-- A whole text is what is written of its value, and is read to its end. -/
structure Texts (codec : Codec Error α) : Prop where
  print_eq (a : α) : format.print codec.write a = String.ofList (codec.write a)
  parse_all {text : String} {a : α} (h : codec.read text.toList = .ok (a, [])) :
    format.parse codec.read text = .ok a
  parse_error {text : String} {e : Error} (h : codec.read text.toList = .error e) :
    format.parse codec.read text = .error e

end Format

/-- In front of a comma or a closing bracket, the reader takes what the writer wrote, no more and
no less. -/
structure Codec.Exact (item : Codec Error α) : Prop where
  starts (a : α) : StartsItem (item.write a)
  takes (a : α) {mark : Char} (h : mark ∈ [',', ']']) (rest : List Char) :
    item.read (item.write a ++ mark :: rest) = .ok (a, mark :: rest)

end Workflow
