import UseCaseEngine.Text.Quoted

/-!
# Messages and their types

A message has a type and a payload. Types form a hierarchy: a type is a root or extends another
one, and a message of a type counts as a message of every type it extends, directly or not. Types
are compared by name.

* **Types** (`MessageType`): `root` and `extending` declare them, `isA` is `is_a` and `ancestry` the
  walk from a type to its root. The roots `error` and `systemEvent` exist beforehand.
* **Messages** (`Message`): a type, a payload, and the form of the text that shows the message
  (`structureText`). `systemEvent` is what makes system steps react.
* **Failures** (`Failure`): the message that a reaction fails with, and its texts.

Out of scope: payloads other than texts, and asking a message for what it was made from
(`downcast_ref`); a program looks at `payload` and `form` instead.

* `MessageType.isA_iff`: a type is an instance of another exactly when the other's name occurs
  among the names of its ancestry.
-/

namespace UseCaseEngine

/-- A message type: a name and, unless the type is a root, the type it extends. -/
inductive MessageType where
  | root (name : String)
  | extending (name : String) (parent : MessageType)
  deriving DecidableEq, Repr

namespace MessageType

/-- The name of the type. -/
def name : MessageType → String
  | .root n => n
  | .extending n _ => n

/-- The type it extends, if any. -/
def parent? : MessageType → Option MessageType
  | .root _ => none
  | .extending _ p => some p

/-- The type followed by everything it extends, nearest first. -/
def ancestry : MessageType → List MessageType
  | .root n => [.root n]
  | .extending n p => .extending n p :: p.ancestry

/-- Two types are the same when their names are. -/
def sameName (a b : MessageType) : Bool := a.name == b.name

/-- The type is `b` or extends it, directly or not. -/
def isA : MessageType → MessageType → Bool
  | .root n, b => n == b.name
  | .extending n p, b => n == b.name || p.isA b

theorem isA_iff (a b : MessageType) : a.isA b = true ↔ b.name ∈ a.ancestry.map name := by
  induction a with
  | root n =>
    rw [isA, beq_iff_eq, @eq_comm _ n]
    simp [ancestry, name]
  | extending n p ih =>
    rw [isA, Bool.or_eq_true, beq_iff_eq, ih, @eq_comm _ n]
    simp [ancestry, name]

theorem isA_self (a : MessageType) : a.isA a = true := by
  cases a <;> simp [isA, name]

/-- The root of all failure types. -/
def error : MessageType := .root "Error"

/-- The type of the message that starts system steps. -/
def systemEvent : MessageType := .root "SystemEvent"

end MessageType

/-- How a message holds its payload: as free text, as a record with one text field, or not at
all. Code that knows a record looks into it; free text under the same type is not that record. -/
inductive Form where
  | plain
  | record
  | unit
  deriving DecidableEq, Repr

/-- A command or an event. -/
structure Message where
  type : MessageType
  form : Form
  payload : String
  deriving DecidableEq, Repr

namespace Message

/-- A message with free text. -/
def plain (type : MessageType) (payload : String) : Message := ⟨type, .plain, payload⟩

/-- The message that starts system steps. -/
def systemEvent : Message := ⟨.systemEvent, .unit, ""⟩

/-- The message is the one that starts system steps. -/
def isSystemEvent (m : Message) : Bool := m.form == .unit && m.type.name == "SystemEvent"

/-- The type's name and the payload, with a colon between them. -/
def label (m : Message) : String := m.type.name ++ ":" ++ m.payload

/-- The text that shows the message's structure: free text as it is, a record's field quoted. -/
def structureText (m : Message) : String :=
  match m.form with
  | .unit => m.type.name
  | .record => m.type.name ++ "(" ++ Text.quoted m.payload ++ ")"
  | .plain => if m.payload.isEmpty then m.type.name else m.type.name ++ "(" ++ m.payload ++ ")"

end Message

/-- A failed reaction: the message that says what went wrong. -/
structure Failure where
  condition : Message
  deriving DecidableEq, Repr

namespace Failure

/-- The type that decides which steps handle the failure. -/
def type (f : Failure) : MessageType := f.condition.type

/-- The text shown to a reader. -/
def message (f : Failure) : String := f.type.name ++ ": " ++ f.condition.structureText

/-- The text that shows the failure's structure. -/
def structureText (f : Failure) : String := "Failure(" ++ f.condition.structureText ++ ")"

end Failure

/-- What a reaction comes to: it may publish a message, or it fails. -/
abbrev Output := Except Failure (Option Message)

end UseCaseEngine
