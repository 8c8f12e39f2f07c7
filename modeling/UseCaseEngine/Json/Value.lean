/-!
# JSON values

The values a JSON text can denote, as far as settings need them. A number keeps the parts of its
literal, since `1`, `1.0` and `-0` are different literals. A text with an escape for half of a
surrogate pair denotes no characters: its content is `none`.
-/

namespace UseCaseEngine.Json

/-- The parts of a number literal. -/
structure Number where
  negative : Bool
  whole : Nat
  /-- The literal has a fraction or an exponent. -/
  scaled : Bool
  deriving DecidableEq, Repr

/-- A JSON value; the members of an object are kept in order, with repetitions. -/
inductive Value where
  | null
  | bool (b : Bool)
  | number (n : Number)
  | text (content : Option String)
  | array (items : List Value)
  | object (members : List (Option String × Value))
  deriving Repr

/-- The value as an unsigned 64-bit word; only an integer literal without a sign is one. -/
def Value.word? : Value → Option UInt64
  | .number ⟨false, n, false⟩ => if n < UInt64.size then some n.toUInt64 else none
  | _ => none

/-- The value as a truth value. -/
def Value.bool? : Value → Option Bool
  | .bool b => some b
  | _ => none

/-- The value as a text. -/
def Value.text? : Value → Option String
  | .text content => content
  | _ => none

end UseCaseEngine.Json
