import UseCaseEngine.Model.Build
import UseCaseEngine.Run.Call

/-!
# A porter

A porter welcomes who knocks, but only the first one since the porter's log was begun.
-/

namespace UseCaseEngine.Porter

/-- One runner for one model. -/
abbrev signature : Signature where
  State := Unit
  ModelName := Unit
  HookName := Empty
  PublisherName := Empty
  runners := 1
  queues := 0

/-- The runner. -/
def porter : RunnerId signature := ⟨0, Nat.one_pos⟩

/-- The type of the message of who is at the door. -/
def knockType : MessageType := .root "Knock"

/-- Somebody is at the door. -/
def knock : Message := .plain knockType ""

/-- What the porter says. -/
def welcome : Message := .plain (.root "Welcome") ""

/-- The porter's log is empty. -/
def isFirst : Guard signature :=
  .ask (.recordedSteps porter) fun (steps : List String) => .done steps.isEmpty

/-- The model. -/
def spec : ModelSpec (code signature) :=
  { name := "porch"
    useCases := [
      { name := "Greet"
        flows := [
          { steps := [
              ((StepSpec.on "Welcome" knockType).onlyIf isFirst).reacting
                (.function fun _ => .done (.ok (some welcome)))] }] }] }

/-- The application. -/
def application : Application signature where
  model _ := spec.assemble
  hook := Empty.elim
  publisher := Empty.elim
  consumer q := Fin.elim0 q

/-- What comes of a request. -/
def ask (q : Request signature) : Effect signature q.Answer :=
  perform application (call application) q

/-- Nothing happened yet but that steps are recorded. -/
def recording : World signature :=
  (ask (.startRecording porter) {
    state := ()
    runners := #v[{}]
    queues := ⟨#[], Array.size_empty⟩ }).2

/-- The porter is at the door. -/
def atDoor (w : World signature) : World signature := (ask (.call porter (.run ())) w).2

/-- Somebody was welcomed, on record. -/
def welcomed : World signature := (ask (.call porter (.react knock)) (atDoor recording)).2

end UseCaseEngine.Porter
