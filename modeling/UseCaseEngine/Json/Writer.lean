import UseCaseEngine.Text.Quoted

/-!
# Writing JSON

Compact JSON texts for the settings: no blanks, members in a given order. A text escapes the quote,
the backslash and the control characters; everything else stands for itself.
-/

namespace UseCaseEngine.Json

/-- How one character is written in a JSON text. -/
def escape (c : Char) : String :=
  match c with
  | '"' => "\\\""
  | '\\' => "\\\\"
  | '\x08' => "\\b"
  | '\t' => "\\t"
  | '\n' => "\\n"
  | '\x0c' => "\\f"
  | '\r' => "\\r"
  | c =>
    if c.toNat < 0x10 then "\\u000" ++ Text.hexText c.toNat
    else if c.toNat < 0x20 then "\\u00" ++ Text.hexText c.toNat
    else c.toString

/-- A text as a JSON text. -/
def textLiteral (s : String) : String :=
  "\"" ++ String.join (s.toList.map escape) ++ "\""

/-- A truth value as a JSON text. -/
def boolLiteral (b : Bool) : String := if b then "true" else "false"

/-- An object whose members are given by their key and the JSON text of their value. -/
def objectLiteral (members : List (String × String)) : String :=
  "\x7b" ++ ",".intercalate (members.map fun m => textLiteral m.1 ++ ":" ++ m.2) ++ "\x7d"

end UseCaseEngine.Json
