import UseCaseEngine.Json.Value

/-!
# Reading JSON

A strict reader: one value, blanks around it, and nothing else. Literals, numbers and escapes have
the forms of the standard; a comma stands only between items. The reader recurses on a depth that
the length of the text bounds, since every level takes a character. It serves the JSON forms of the
settings (`ofText?`).

Out of scope: what is wrong with a text that cannot be read, and bounds on the depth of values that
are ignored.
-/

namespace UseCaseEngine.Json

/-- The blanks between the parts of a JSON text. -/
def isGap (c : Char) : Bool := c == ' ' || c == '\t' || c == '\n' || c == '\r'

/-- The text behind its leading blanks. -/
def skipGap (cs : List Char) : List Char := cs.dropWhile isGap

/-- The text behind a given beginning. -/
def expect : List Char → List Char → Option (List Char)
  | [], cs => some cs
  | w :: ws, c :: cs => if w == c then expect ws cs else none
  | _ :: _, [] => none

/-- The value of a hexadecimal digit, in either case. -/
def hexDigit? (c : Char) : Option Nat :=
  if c.isDigit then some (c.toNat - '0'.toNat)
  else if 'a' ≤ c && c ≤ 'f' then some (c.toNat - 'a'.toNat + 10)
  else if 'A' ≤ c && c ≤ 'F' then some (c.toNat - 'A'.toNat + 10)
  else none

/-- The number that a list of decimal digits denotes. -/
def digitsValue (cs : List Char) : Nat :=
  cs.foldl (fun n c => n * 10 + (c.toNat - '0'.toNat)) 0

/-- At least one digit, and the text behind the digits. -/
def digits (cs : List Char) : Option (List Char × List Char) :=
  match cs.takeWhile Char.isDigit with
  | [] => none
  | ds => some (ds, cs.dropWhile Char.isDigit)

/-- The digits before the point: `0` alone, or a number that does not start with it. -/
def wholePart (cs : List Char) : Option (Nat × List Char) :=
  match digits cs with
  | some ('0' :: _ :: _, _) => none
  | some (ds, rest) => some (digitsValue ds, rest)
  | none => none

/-- An optional fraction; the flag says whether there is one. -/
def fractionPart : List Char → Option (Bool × List Char)
  | '.' :: cs => (digits cs).map fun r => (true, r.2)
  | cs => some (false, cs)

/-- An optional exponent; the flag says whether there is one. -/
def exponentPart : List Char → Option (Bool × List Char)
  | c :: cs =>
    if c == 'e' || c == 'E' then
      match cs with
      | s :: ds =>
        if s == '+' || s == '-' then (digits ds).map fun r => (true, r.2)
        else (digits cs).map fun r => (true, r.2)
      | [] => none
    else some (false, c :: cs)
  | [] => some (false, [])

/-- A number literal. -/
def readNumber (cs : List Char) : Option (Number × List Char) := do
  let (negative, cs) := match cs with
    | '-' :: rest => (true, rest)
    | cs => (false, cs)
  let (whole, cs) ← wholePart cs
  let (fraction, cs) ← fractionPart cs
  let (exponent, cs) ← exponentPart cs
  return (⟨negative, whole, fraction || exponent⟩, cs)

/-- One unit of a text: a character, or a code unit written by its four hexadecimal digits. -/
inductive Piece where
  | char (c : Char)
  | unit (n : Nat)
  deriving DecidableEq, Repr

/-- The character that a one-letter escape stands for. -/
def shortEscape? : Char → Option Char
  | '"' => some '"'
  | '\\' => some '\\'
  | '/' => some '/'
  | 'b' => some '\x08'
  | 'f' => some '\x0c'
  | 'n' => some '\n'
  | 'r' => some '\r'
  | 't' => some '\t'
  | _ => none

/-- The code unit that four hexadecimal digits denote. -/
def hexUnit? (a b c d : Char) : Option Nat := do
  return (((← hexDigit? a) * 16 + (← hexDigit? b)) * 16 + (← hexDigit? c)) * 16 + (← hexDigit? d)

/-- The pieces of a text up to its closing quote, and the text behind it. -/
def readPieces : List Char → Option (List Piece × List Char)
  | [] => none
  | '"' :: rest => some ([], rest)
  | '\\' :: 'u' :: a :: b :: c :: d :: rest => do
    let unit ← hexUnit? a b c d
    let (ps, rest) ← readPieces rest
    return (.unit unit :: ps, rest)
  | '\\' :: e :: rest => do
    let c ← shortEscape? e
    let (ps, rest) ← readPieces rest
    return (.char c :: ps, rest)
  | c :: rest => do
    if c.toNat < 0x20 || c == '\\' then none
    let (ps, rest) ← readPieces rest
    return (.char c :: ps, rest)

/-- The characters of a text; two units of a surrogate pair make one, a half of a pair none. -/
def joinPieces : List Piece → Option (List Char)
  | [] => some []
  | .char c :: ps => (joinPieces ps).map (c :: ·)
  | .unit high :: .unit low :: ps =>
    if 0xd800 ≤ high && high < 0xdc00 then
      if 0xdc00 ≤ low && low < 0xe000 then
        (joinPieces ps).map (Char.ofNat (0x10000 + (high - 0xd800) * 0x400 + (low - 0xdc00)) :: ·)
      else none
    else if 0xdc00 ≤ high && high < 0xe000 then none
    else (joinPieces (.unit low :: ps)).map (Char.ofNat high :: ·)
  | .unit n :: ps =>
    if 0xd800 ≤ n && n < 0xe000 then none else (joinPieces ps).map (Char.ofNat n :: ·)

/-- A text behind its opening quote. -/
def readText (cs : List Char) : Option (Option String × List Char) :=
  (readPieces cs).map fun r => ((joinPieces r.1).map String.ofList, r.2)

mutual

/-- One value at the start of the text. -/
def readValue : Nat → List Char → Option (Value × List Char)
  | 0, _ => none
  | depth + 1, cs =>
    match skipGap cs with
    | '"' :: rest => (readText rest).map fun r => (.text r.1, r.2)
    | '[' :: rest =>
      match skipGap rest with
      | ']' :: rest => some (.array [], rest)
      | rest => (readItems depth rest).map fun r => (.array r.1, r.2)
    | '{' :: rest =>
      match skipGap rest with
      | '}' :: rest => some (.object [], rest)
      | rest => (readMembers depth rest).map fun r => (.object r.1, r.2)
    | 'n' :: rest => (expect ['u', 'l', 'l'] rest).map fun rest => (.null, rest)
    | 't' :: rest => (expect ['r', 'u', 'e'] rest).map fun rest => (.bool true, rest)
    | 'f' :: rest => (expect ['a', 'l', 's', 'e'] rest).map fun rest => (.bool false, rest)
    | cs => (readNumber cs).map fun r => (.number r.1, r.2)

/-- The items of an array up to its closing bracket; there is at least one. -/
def readItems : Nat → List Char → Option (List Value × List Char)
  | 0, _ => none
  | depth + 1, cs => do
    let (item, cs) ← readValue depth cs
    match skipGap cs with
    | ',' :: rest =>
      let (items, rest) ← readItems depth rest
      return (item :: items, rest)
    | ']' :: rest => return ([item], rest)
    | _ => none

/-- The members of an object up to its closing brace; there is at least one. -/
def readMembers : Nat → List Char → Option (List (Option String × Value) × List Char)
  | 0, _ => none
  | depth + 1, cs =>
    match skipGap cs with
    | '"' :: rest => do
      let (key, rest) ← readText rest
      match skipGap rest with
      | ':' :: rest =>
        let (value, rest) ← readValue depth rest
        match skipGap rest with
        | ',' :: rest =>
          let (members, rest) ← readMembers depth rest
          return ((key, value) :: members, rest)
        | '}' :: rest => return ([(key, value)], rest)
        | _ => none
      | _ => none
    | _ => none

end

/-- The value of a whole text. -/
def read? (s : String) : Option Value :=
  match readValue (2 * s.length + 1) s.toList with
  | some (value, rest) => if (skipGap rest).isEmpty then some value else none
  | none => none

end UseCaseEngine.Json
