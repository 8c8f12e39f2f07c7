import UseCaseEngine.Text.Invisible
import UseCaseEngine.Text.Extender

/-!
# Quoted texts

`quoted s` writes a text between double quotes so that it can be read back: the quote and the
backslash get a backslash, the four common control characters their letter, and every other
character that cannot be seen on its own its code point in hexadecimal. Names are shown so in the
texts of models, queues and runners.
-/

namespace UseCaseEngine.Text

/-- The hexadecimal digits of a number, in lower case and without leading zeros. -/
def hexText (n : Nat) : String := String.ofList (Nat.toDigits 16 n)

/-- The code point of a character, written between braces. -/
def codePointText (c : Char) : String := "\\u\x7b" ++ hexText c.toNat ++ "\x7d"

/-- The character can be shown as it is. -/
def isPlain (c : Char) : Bool :=
  c != '\\' && c != '"' && !isInvisible c && !isExtender c

/-- How one character is written inside quotes. -/
def escape (c : Char) : String :=
  match c with
  | '\x00' => "\\0"
  | '\t' => "\\t"
  | '\r' => "\\r"
  | '\n' => "\\n"
  | '\\' => "\\\\"
  | '"' => "\\\""
  | c => if isPlain c then c.toString else codePointText c

/-- The text between double quotes. -/
def quoted (s : String) : String :=
  "\"" ++ String.join (s.toList.map escape) ++ "\""

/-- The items between brackets, each followed by a comma and a blank but the last. -/
def bracketed (items : List String) : String :=
  "[" ++ ", ".intercalate items ++ "]"

/-- A text that may be missing. -/
def optional : Option String → String
  | none => "None"
  | some s => "Some(" ++ s ++ ")"

end UseCaseEngine.Text
