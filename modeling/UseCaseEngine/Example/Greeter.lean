import UseCaseEngine.Model.Build
import UseCaseEngine.Run.Request

/-!
# A greeter

The system says hello, and then greets a user by name; an actor prints the greeting. The model
(`greeter`) is given the printer's inbox.
-/

namespace UseCaseEngine.Greeter

variable {S : Signature}

/-- The type of the message in which a user gives a name. -/
def enterNameType : MessageType := .root "EnterName"

/-- A user gives a name. -/
def enterName (name : String) : Message := ⟨enterNameType, .record, name⟩

/-- A greeting. -/
def greeting (text : String) : Message := ⟨.root "Greeting", .record, text⟩

/-- The greeting for a message. Whoever gives no name is a stranger. -/
def greet (m : Message) : Message :=
  greeting ("hello, " ++
    if m.form == .record && m.type.name == enterNameType.name then m.payload else "stranger")

/-- The model, given what its printer does with a greeting. -/
def spec (printer : Message → Action S CallResult) : ModelSpec (code S) :=
  { name := "greeter"
    actors := [{ name := "Printer", inbox := some printer }]
    useCases := [{
      name := "Greet"
      flows := [{
        steps := [
          .system "Say hello",
          ((StepSpec.on "Greet by name" enterNameType).publishingTo "Printer").reacting
            (.function fun m => .done (.ok (some (greet m))))] }] }] }

end UseCaseEngine.Greeter
