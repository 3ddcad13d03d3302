import Workflow.Text.Unseen

/-!
# Inspection: values as a programmer writes them

Values are shown for inspection in the usual notation of constructors, records and lists:
`Some(3)`, `Point { x: 1 }`, `[1, 2]`. Text is shown between double quotes, with everything that
could be misread escaped: a backslash, a double quote, the line and tab controls by letter, NUL as
`\0`, and unseen characters by number.
-/

namespace Workflow.Text

/-- The hexadecimal digits of `n`, in lower case and without leading zeros. -/
def hex (n : Nat) : String := String.ofList (Nat.toDigits 16 n)

/-- A character as it stands between double quotes. -/
def quotedChar (c : Char) : String :=
  match c with
  | '"' => "\\\""
  | '\\' => "\\\\"
  | '\n' => "\\n"
  | '\r' => "\\r"
  | '\t' => "\\t"
  | '\x00' => "\\0"
  | c => if isUnseen c then "\\u\x7b" ++ hex c.toNat ++ "\x7d" else c.toString

/-- Text between double quotes. -/
def quoted (s : String) : String :=
  "\"" ++ String.join (s.toList.map quotedChar) ++ "\""

/-- Items between brackets. -/
def listed (items : List String) : String :=
  "[" ++ ", ".intercalate items ++ "]"

/-- A constructor applied to arguments. -/
def applied (name : String) (arguments : List String) : String :=
  name ++ "(" ++ ", ".intercalate arguments ++ ")"

/-- A record: its name and its fields in order. -/
def record (name : String) (fields : List (String × String)) : String :=
  let shown := fields.map fun (key, value) => key ++ ": " ++ value
  name ++ " \x7b " ++ ", ".intercalate shown ++ " \x7d"

end Workflow.Text
