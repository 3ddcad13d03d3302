/-!
# Reading JSON as values of a known type

A reader takes a value off the front of a text and answers the value and the rest. It knows which
type it is to find, so three things can be wrong with a text, and the first one met is reported:

* it is no JSON at all (`grammar`);
* it stops too early (`ending`);
* it is JSON up to here, but holds a value of another type (`data`).

A value of another type is read as far as its first token before it is refused, because that token
may be no JSON either. Numbers are read in full, fraction and exponent included; one that is too
large for binary floating point counts as no JSON.
-/

namespace Workflow.Json

/-- What is wrong with a text. -/
inductive Defect where
  | data
  | grammar
  | ending
  deriving DecidableEq, Repr

/-- The defect's name in messages. -/
def Defect.name : Defect → String
  | data => "Data"
  | grammar => "Syntax"
  | ending => "Eof"

/-- Takes a value off the front of a text. -/
abbrev Reader (α : Type) := List Char → Except Defect (α × List Char)

/-- Blanks between tokens. -/
def isBlank (c : Char) : Bool := c == ' ' || c == '\n' || c == '\t' || c == '\r'

def skipBlank (cs : List Char) : List Char := cs.dropWhile isBlank

/-! ## Words -/

/-- The text behind `word`, if it starts with it. -/
def behind : List Char → List Char → Except Defect (List Char)
  | [], cs => .ok cs
  | _ :: _, [] => .error .ending
  | w :: word, c :: cs => if w = c then behind word cs else .error .grammar

/-! ## Numbers -/

/-- A number: an integer in plain digits, or any other. -/
inductive Numeral where
  | whole (n : Int)
  | other
  deriving DecidableEq, Repr

/-- `n` to 53 binary digits, a tie to the even neighbour. -/
def round53 (n : Nat) : Nat :=
  let unit := Nat.pow 2 (n.log2 + 1 - 53)
  let low := n / unit
  let up := 2 * (n % unit) > unit || (2 * (n % unit) == unit && low % 2 == 1)
  (if up then low + 1 else low) * unit

/-- Whether `n · 10 ^ e` lies beyond the finite numbers of binary floating point. -/
def isTooLarge (n : Nat) (e : Int) : Bool :=
  match e with
  | .ofNat e =>
    n != 0 && (308 < e || Nat.pow 2 1024 - Nat.pow 2 970 ≤ round53 n * round53 (Nat.pow 10 e))
  | .negSucc _ => false

/-- Appends decimal digits to `n` as long as 64 bits hold the result; also says how many. -/
def absorb (n : Nat) : List Char → Nat × Nat
  | [] => (n, 0)
  | d :: ds =>
    if n * 10 + (d.toNat - 48) < Nat.pow 2 64 then
      let (n, taken) := absorb (n * 10 + (d.toNat - 48)) ds
      (n, taken + 1)
    else (n, 0)

/-- The digits at the front, of which there must be one. -/
def digits (cs : List Char) : Except Defect (List Char × List Char) :=
  match cs.takeWhile Char.isDigit, cs.dropWhile Char.isDigit with
  | [], [] => .error .ending
  | [], _ :: _ => .error .grammar
  | ds, rest => .ok (ds, rest)

/-- The optional exponent behind the number `n · 10 ^ e`. -/
def exponent (n : Nat) (e : Int) (cs : List Char) : Except Defect (Numeral × List Char) :=
  match cs with
  | [] => if isTooLarge n e then .error .grammar else .ok (.other, [])
  | c :: rest =>
    if c == 'e' || c == 'E' then do
      let (negative, rest) := match rest with
        | '+' :: rest => (false, rest)
        | '-' :: rest => (true, rest)
        | rest => (false, rest)
      let (ds, rest) ← digits rest
      let size : Int := ds.foldl (fun n d => n * 10 + (d.toNat - 48)) 0
      let e := if negative then e - size else e + size
      if isTooLarge n e then .error .grammar else .ok (.other, rest)
    else if isTooLarge n e then .error .grammar
    else .ok (.other, cs)

/-- A number behind its sign. -/
def numeral (negative : Bool) (cs : List Char) : Except Defect (Numeral × List Char) := do
  let (ds, rest) ← digits cs
  if ds.head? = some '0' && ds.length != 1 then
    .error .grammar
  else
    let (n, taken) := absorb 0 ds
    let skipped : Int := ds.length - taken
    match rest with
    | '.' :: rest => do
      let (fraction, rest) ← digits rest
      let (n, taken) := absorb n fraction
      exponent n (skipped - taken) rest
    | _ =>
      if skipped != 0 || rest.head? = some 'e' || rest.head? = some 'E' then
        exponent n skipped rest
      else if negative then
        .ok (if n = 0 then .other else .whole (-n), rest)
      else .ok (.whole n, rest)

/-! ## Strings -/

/-- The value of a hexadecimal digit. -/
def hexValue (c : Char) : Option Nat :=
  if c.isDigit then some (c.toNat - 48)
  else if 'a' ≤ c && c ≤ 'f' then some (c.toNat - 87)
  else if 'A' ≤ c && c ≤ 'F' then some (c.toNat - 55)
  else none

/-- Four hexadecimal digits. A text of fewer than four bytes is cut short, whatever it holds. -/
def hexUnit (cs : List Char) : Except Defect (Nat × List Char) :=
  match cs with
  | a :: b :: c :: d :: rest =>
    match hexValue a, hexValue b, hexValue c, hexValue d with
    | some a, some b, some c, some d => .ok (((a * 16 + b) * 16 + c) * 16 + d, rest)
    | _, _, _, _ => .error .grammar
  | cs => .error (if (String.ofList cs).utf8ByteSize < 4 then .ending else .grammar)

/-- The character that `\u` introduces: one unit, or the two halves of a surrogate pair. -/
def unicode (cs : List Char) : Except Defect (Char × List Char) := do
  let (high, rest) ← hexUnit cs
  if 0xDC00 ≤ high && high ≤ 0xDFFF then .error .grammar
  else if high < 0xD800 || 0xDBFF < high then .ok (Char.ofNat high, rest)
  else
    let rest ← behind ['\\', 'u'] rest
    let (low, rest) ← hexUnit rest
    if low < 0xDC00 || 0xDFFF < low then .error .grammar
    else .ok (Char.ofNat (0x10000 + (high - 0xD800) * 0x400 + (low - 0xDC00)), rest)

/-- The character that a backslash introduces. -/
def unescaped (cs : List Char) : Except Defect (Char × List Char) :=
  match cs with
  | [] => .error .ending
  | 'u' :: rest => unicode rest
  | '"' :: rest => .ok ('"', rest)
  | '\\' :: rest => .ok ('\\', rest)
  | '/' :: rest => .ok ('/', rest)
  | 'b' :: rest => .ok ('\x08', rest)
  | 'f' :: rest => .ok ('\x0c', rest)
  | 'n' :: rest => .ok ('\n', rest)
  | 'r' :: rest => .ok ('\r', rest)
  | 't' :: rest => .ok ('\t', rest)
  | _ :: _ => .error .grammar

/-- The characters of a string up to its closing quote. Every character takes at least one off the
text, so the text's length is fuel enough. -/
def characters : Nat → List Char → Except Defect (List Char × List Char)
  | 0, _ => .error .ending
  | _ + 1, [] => .error .ending
  | fuel + 1, c :: cs =>
    if c = '"' then .ok ([], cs)
    else if c = '\\' then do
      let (c, cs) ← unescaped cs
      let (s, cs) ← characters fuel cs
      .ok (c :: s, cs)
    else if c.toNat < 0x20 then .error .grammar
    else do
      let (s, cs) ← characters fuel cs
      .ok (c :: s, cs)

/-- A string behind its opening quote. -/
def text (cs : List Char) : Except Defect (String × List Char) := do
  let (s, rest) ← characters (cs.length + 1) cs
  .ok (String.ofList s, rest)

/-! ## Values -/

/-- What is wrong with a text whose first token does not start a value of the wanted type. -/
def misfit (cs : List Char) : Defect :=
  let verdict {α : Type} : Except Defect α → Defect
    | .ok _ => .data
    | .error d => d
  match cs with
  | [] => .ending
  | 'n' :: rest => verdict (behind ['u', 'l', 'l'] rest)
  | 't' :: rest => verdict (behind ['r', 'u', 'e'] rest)
  | 'f' :: rest => verdict (behind ['a', 'l', 's', 'e'] rest)
  | '-' :: rest => verdict (numeral true rest)
  | '"' :: rest => verdict (text rest)
  | '[' :: _ => .data
  | '\x7b' :: _ => .data
  | c :: _ => if c.isDigit then verdict (numeral false cs) else .grammar

/-- `null` as the only value of its type. -/
def readUnit : Reader Unit := fun cs =>
  match skipBlank cs with
  | 'n' :: rest => do return ((), ← behind ['u', 'l', 'l'] rest)
  | cs => .error (misfit cs)

def readBool : Reader Bool := fun cs =>
  match skipBlank cs with
  | 't' :: rest => do return (true, ← behind ['r', 'u', 'e'] rest)
  | 'f' :: rest => do return (false, ← behind ['a', 'l', 's', 'e'] rest)
  | cs => .error (misfit cs)

/-- An integer between `low` and `high`, both included. -/
def readInt (low high : Int) : Reader Int := fun cs =>
  let within : Numeral × List Char → Except Defect (Int × List Char)
    | (.whole n, rest) => if low ≤ n && n ≤ high then .ok (n, rest) else .error .data
    | (.other, _) => .error .data
  match skipBlank cs with
  | '-' :: rest => do within (← numeral true rest)
  | c :: rest =>
    if c.isDigit then do within (← numeral false (c :: rest)) else .error (misfit (c :: rest))
  | [] => .error .ending

def readText : Reader String := fun cs =>
  match skipBlank cs with
  | '"' :: rest => text rest
  | cs => .error (misfit cs)

/-- `null` for the absent value. -/
def readOption {α : Type} (item : Reader α) : Reader (Option α) := fun cs =>
  match skipBlank cs with
  | [] => .error .ending
  | 'n' :: rest => do return (none, ← behind ['u', 'l', 'l'] rest)
  | cs => do
    let (a, rest) ← item cs
    return (some a, rest)

/-- The text behind the comma before the next item. -/
def comma (cs : List Char) : Except Defect (List Char) :=
  match skipBlank cs with
  | [] => .error .ending
  | ']' :: _ => .error .grammar
  | cs => .ok cs

/-- The items behind the first one, up to the closing bracket. Every item takes at least its comma
off the text, so the text's length is fuel enough. -/
def moreItems {α : Type} (item : Reader α) : Nat → Reader (List α)
  | 0, _ => .error .ending
  | fuel + 1, cs =>
    match skipBlank cs with
    | [] => .error .ending
    | ']' :: rest => .ok ([], rest)
    | ',' :: rest => do
      let (a, rest) ← item (← comma rest)
      let (as, rest) ← moreItems item fuel rest
      return (a :: as, rest)
    | _ :: _ => .error .grammar

/-- An array of any length. -/
def readList {α : Type} (item : Reader α) : Reader (List α) := fun cs =>
  match skipBlank cs with
  | '[' :: rest =>
    match skipBlank rest with
    | [] => .error .ending
    | ']' :: rest => .ok ([], rest)
    | rest => do
      let (a, rest) ← item rest
      let (as, rest) ← moreItems item (rest.length + 1) rest
      return (a :: as, rest)
  | cs => .error (misfit cs)

/-- An array of two items. -/
def readPair {α β : Type} (first : Reader α) (second : Reader β) : Reader (α × β) := fun cs =>
  match skipBlank cs with
  | '[' :: rest =>
    match skipBlank rest with
    | [] => .error .ending
    | ']' :: _ => .error .data
    | rest => do
      let (a, rest) ← first rest
      match skipBlank rest with
      | [] => .error .ending
      | ']' :: _ => .error .data
      | ',' :: rest =>
        let (b, rest) ← second (← comma rest)
        match skipBlank rest with
        | [] => .error .ending
        | ']' :: rest => return ((a, b), rest)
        | _ :: _ => .error .grammar
      | _ :: _ => .error .grammar
  | cs => .error (misfit cs)

/-- Reads a whole text: nothing but blanks may follow the value. -/
def parse {α : Type} (reader : Reader α) (s : String) : Except Defect α := do
  let (a, rest) ← reader s.toList
  match skipBlank rest with
  | [] => .ok a
  | _ :: _ => .error .grammar

end Workflow.Json
