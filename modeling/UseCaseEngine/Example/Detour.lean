import UseCaseEngine.Model.Build
import UseCaseEngine.Run.Call

/-!
# A trip with a detour

A trip includes a detour on its way. The detour has two stops, and a shortcut that leads right
behind the second one.
-/

namespace UseCaseEngine.Detour

/-- One runner for one model, and no state. -/
abbrev signature : Signature where
  State := Unit
  ModelName := Unit
  HookName := Empty
  PublisherName := Empty
  runners := 1
  queues := 0

/-- The runner. -/
def driver : RunnerId signature := (0 : Fin 1)

/-- The type of the message that leads on to the next stop. -/
def driveType : MessageType := .root "Drive"

/-- The type of the message that takes the shortcut. -/
def hurryType : MessageType := .root "Hurry"

/-- Leads on to the next stop. -/
def drive : Message := ⟨driveType, .unit, ""⟩

/-- Takes the shortcut. -/
def hurry : Message := ⟨hurryType, .unit, ""⟩

/-- The model. -/
def spec : ModelSpec (code signature) :=
  { name := "trip"
    useCases := [
      { name := "Trip"
        flows := [{
          steps := [
            (StepSpec.on "Leave the road" driveType).reacting (.includeUseCase "Detour"),
            .on "Arrive" driveType] }] },
      { name := "Detour"
        flows := [
          { steps := [.on "First stop" driveType, .on "Second stop" driveType] },
          { name := "Shortcut"
            position := some .anytime
            steps := [
              (StepSpec.on "Hurry" hurryType).reacting (.continueAfter "Second stop")] }] }] }

/-- The application. -/
def application : Application signature where
  model _ := spec.assemble
  hook := Empty.elim
  publisher := Empty.elim
  consumer q := Fin.elim0 q

/-- Nothing happened yet. -/
def start : World signature where
  state := ()
  runners := #v[{}]
  queues := #v[]

/-- The world after some calls. -/
def after (calls : List (Call signature)) : World signature :=
  calls.foldl (fun w c => (call application driver c w).2) start

end UseCaseEngine.Detour
