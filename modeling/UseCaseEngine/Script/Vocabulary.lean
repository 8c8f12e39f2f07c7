import UseCaseEngine.Example.Cart
import UseCaseEngine.Example.Greeter

/-!
# Vocabularies

The message types that a script declares, and the tags that its messages are named by. A name means
its latest declaration; a name that was never declared is a root type. Some tags name the messages
of the example models, or the one that starts system steps.

* `find_declareRoot_self`, `find_declareChild_self`: a declaration is in force at once.
-/

namespace UseCaseEngine.Script

/-- The declared types, the latest first. -/
structure Vocabulary where
  declared : List MessageType := [.systemEvent, .error]

namespace Vocabulary

/-- The type that a name means. -/
def find (v : Vocabulary) (name : String) : MessageType :=
  (v.declared.find? (·.name == name)).getD (.root name)

/-- Declares a root type. -/
def declareRoot (v : Vocabulary) (name : String) : Vocabulary := ⟨.root name :: v.declared⟩

/-- Declares a type that extends the one its parent's name means now. -/
def declareChild (v : Vocabulary) (name parent : String) : Vocabulary :=
  ⟨.extending name (v.find parent) :: v.declared⟩

theorem find_declareRoot_self (v : Vocabulary) (name : String) :
    (v.declareRoot name).find name = .root name := by
  simp [find, declareRoot, MessageType.name]

theorem find_declareChild_self (v : Vocabulary) (name parent : String) :
    (v.declareChild name parent).find name = .extending name (v.find parent) := by
  simp [find, declareChild, MessageType.name]

end Vocabulary

/-- What a message is made of, its payload apart. -/
structure Tag where
  type : MessageType
  form : Form

namespace Tag

/-- The message with a payload, if it has one. -/
def message (t : Tag) (payload : String) : Message :=
  match t.form with
  | .unit => ⟨t.type, .unit, ""⟩
  | form => ⟨t.type, form, payload⟩

/-- The tags with a meaning of their own. -/
def known : List (String × Tag) :=
  [("demo:EnterName", ⟨Greeter.enterNameType, .record⟩),
   ("demo:Greeting", ⟨(Greeter.greeting "").type, .record⟩),
   ("demo:AddItem", ⟨Cart.addItemType, .record⟩),
   ("demo:Checkout", ⟨Cart.checkoutType, .unit⟩),
   ("demo:InvalidItem", ⟨Cart.invalidItemType, .record⟩),
   ("real:SystemEvent", ⟨.systemEvent, .unit⟩)]

/-- The tag that a name means. -/
def ofName (v : Vocabulary) (name : String) : Tag :=
  (known.lookup name).getD ⟨v.find name, .plain⟩

end Tag

end UseCaseEngine.Script
