import UseCaseEngine.Model.Build
import UseCaseEngine.Run.Delivery

/-!
# A kitchen

What is to be done in a kitchen goes to the sink, where one after the other is done. Dishes that
were washed have to be dried, and that goes to the sink as well; a dish may break.
-/

namespace UseCaseEngine.Kitchen

/-- One runner, who works off one queue. The state tells what was done. -/
abbrev signature : Signature where
  State := List String
  ModelName := Unit
  HookName := Empty
  PublisherName := Empty
  runners := 1
  queues := 1

/-- The runner. -/
def hand : RunnerId signature := ⟨0, Nat.one_pos⟩

/-- The queue. -/
def sink : QueueId signature := ⟨0, Nat.one_pos⟩

/-- The type of the messages that say what is to be done. -/
def taskType : MessageType := .root "Task"

/-- Something is to be done. -/
def task (what : String) : Message := .plain taskType what

/-- What is left to be done about a dish. -/
def rest (what : String) : Output :=
  if what == "wash" then .ok (some (task "dry"))
  else if what == "break" then .error ⟨.plain (.extending "Broken" .error) ""⟩
  else .ok none

/-- The model. What is left to be done goes to the sink. -/
def spec : ModelSpec (code signature) :=
  { name := "kitchen"
    actors := [{ name := "Sink", inbox := some (Action.toQueue sink) }]
    useCases := [
      { name := "Clean up"
        flows := [
          { position := some .anytime
            name := "Dishes"
            steps := [
              ((StepSpec.on "Do" taskType).publishingTo "Sink").reacting (.function fun m =>
                .ask (.inl .readState) fun (done : List String) =>
                  .ask (.inl (.writeState (done ++ [m.payload]))) fun _ =>
                    .done (rest m.payload))] }] }] }

/-- The application. The worker of the queue hands what it takes to the runner. -/
def application : Application signature where
  model _ := spec.assemble
  hook := Empty.elim
  publisher := Empty.elim
  consumer _ m := do return .handled (← Action.toRunner hand m)

/-- The kitchen is open. -/
def ready : World signature :=
  (perform application (call application) (.call hand (.run ())) {
    state := []
    runners := #v[{}]
    queues := #v[{ name := "sink" }] }).2

end UseCaseEngine.Kitchen
