import UseCaseEngine.Model.Build
import UseCaseEngine.Run.Call
import UseCaseEngine.Tracing

/-!
# A bakery

A loaf of bread is sold and wrapped up. When none is left, there is an apology. The hook samples
what is done.
-/

namespace UseCaseEngine.Bakery

/-- One runner for one model. The state tells how many loaves are left. -/
abbrev signature : Signature where
  State := Nat
  ModelName := Unit
  HookName := Unit
  PublisherName := Empty
  runners := 1
  queues := 0

/-- The type of the message that asks for bread. -/
def orderType : MessageType := .root "Order"

/-- The type of the failure to sell any. -/
def soldOutType : MessageType := .extending "SoldOut" .error

/-- Asks for bread. -/
def order : Message := .plain orderType ""

/-- Sells a loaf, if one is left. -/
def sell (_ : Message) : Action signature Output :=
  .ask (.inl .readState) fun (left : Nat) =>
    match left with
    | 0 => .done (.error ⟨.plain soldOutType ""⟩)
    | left + 1 =>
      .ask (.inl (.writeState left)) fun _ => .done (.ok (some (.plain (.root "Bread") "")))

/-- The model. -/
def spec : ModelSpec (code signature) :=
  { name := "bakery"
    useCases := [
      { name := "Sell bread"
        flows := [
          { name := "Order"
            position := some .anytime
            steps := [(StepSpec.on "Sell" orderType).reacting (.function sell),
              StepSpec.system "Wrap up"] },
          { name := "Sold out"
            position := some .anytime
            steps := [StepSpec.onFailure "Apologise" soldOutType] }] }] }

/-- The application. -/
def application : Application signature where
  model _ := spec.assemble
  hook _ := Hook.traced "bakery" true
  publisher := Empty.elim
  consumer q := Fin.elim0 q

end UseCaseEngine.Bakery
