/-!
# Writing JSON

Values are written compactly, without a blank between tokens. Texts are lists of characters, so that
what was written can be read again by recursion. In a string the quote, the backslash and the
controls are escaped, those that have a letter by it and the others by four hexadecimal digits;
everything else stands for itself.
-/

namespace Workflow.Json

/-- The absent value. -/
def writeNull : List Char := ['n', 'u', 'l', 'l']

def writeBool : Bool → List Char
  | true => ['t', 'r', 'u', 'e']
  | false => ['f', 'a', 'l', 's', 'e']

/-- An integer in decimal digits. -/
def writeInt (n : Int) : List Char :=
  if n < 0 then '-' :: Nat.toDigits 10 n.natAbs else Nat.toDigits 10 n.natAbs

/-- A character as it stands in a string. -/
def escaped (c : Char) : List Char :=
  if c = '"' then ['\\', '"']
  else if c = '\\' then ['\\', '\\']
  else if c = '\x08' then ['\\', 'b']
  else if c = '\x0c' then ['\\', 'f']
  else if c = '\n' then ['\\', 'n']
  else if c = '\r' then ['\\', 'r']
  else if c = '\t' then ['\\', 't']
  else if c.toNat < 0x20 then
    ['\\', 'u', '0', '0', Nat.digitChar (c.toNat / 16), Nat.digitChar (c.toNat % 16)]
  else [c]

/-- A string. -/
def writeText (s : String) : List Char :=
  '"' :: (s.toList.flatMap escaped ++ ['"'])

/-- What follows the first item of an array. -/
def afterFirst : List (List Char) → List Char
  | [] => [']']
  | item :: items => ',' :: (item ++ afterFirst items)

/-- An array of written items. -/
def writeArray : List (List Char) → List Char
  | [] => ['[', ']']
  | item :: items => '[' :: (item ++ afterFirst items)

/-- An object with one field. -/
def writeObject (key : String) (value : List Char) : List Char :=
  '\x7b' :: (writeText key ++ ':' :: (value ++ ['\x7d']))

end Workflow.Json
