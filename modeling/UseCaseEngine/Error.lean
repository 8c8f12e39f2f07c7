import UseCaseEngine.Message

/-!
# Errors

Each kind of error is a cause with its data; `message` gives its wording, the text that an error is
displayed with.

* **Calls** (`RunnerError`): what `run`, `react_to`, an inspection or a delivery can end with.
* **Building** (`ModelError`): what `build` refuses a specification for.
* **Queues** (`QueueError`): what `start_named`, `put` and `stop` answer. `toRunnerError` is what
  whoever has a queue `handle` a message is told.
* **Settings** (`SettingsError`): what `validate` refuses.

Out of scope: the operating system's own wording where a worker cannot be started; its text is part
of the error as it was given.
-/

namespace UseCaseEngine

/-- Why a call on a runner fails. -/
inductive RunnerError where
  /-- Several steps could react to a message of the type. -/
  | ambiguousReaction (type : String) (steps : List String)
  /-- The step would be the one after the last allowed continuation. -/
  | infiniteRepetition (step : String) (limit : Nat)
  /-- The step failed and nothing handled the failure. -/
  | uncaughtReaction (step : String) (failure : Failure)
  /-- The runner was called while it was reacting with the step. -/
  | nestedCall (step : String)
  /-- A position or a continuation refers to a step that does not exist. -/
  | unknownStep (name : String)
  /-- A step includes a use case that does not exist. -/
  | unknownUseCase (name : String)
  /-- A message could not be delivered. -/
  | delivery (reason : String)
  deriving DecidableEq, Repr

/-- The wording of a runner error. -/
def RunnerError.message : RunnerError → String
  | .ambiguousReaction type steps =>
    "More than one step can react to " ++ type ++ ": " ++ ", ".intercalate steps
  | .infiniteRepetition step limit =>
    "Step " ++ step ++ " repeated more than " ++ toString limit
      ++ " times without external input; check for an always-true condition"
  | .uncaughtReaction step failure =>
    "Uncaught failure in step " ++ step ++ ": " ++ failure.message
  | .nestedCall step =>
    "Nested call to react_to from inside the reaction of step " ++ step
  | .unknownStep name => "Unknown step: " ++ name
  | .unknownUseCase name => "Unknown use case: " ++ name
  | .delivery reason => "Delivery error: " ++ reason

/-- Why a specification is no model. -/
inductive ModelError where
  | duplicateActor (name : String)
  | duplicateUseCase (name : String)
  | duplicateStep (name : String)
  | duplicateFlow (useCase flow : String)
  /-- The step is bound to, or publishes to, an actor that the model does not have. -/
  | unknownActor (step actor : String)
  | emptyFlow (useCase flow : String)
  deriving DecidableEq, Repr

/-- The wording of a model error. -/
def ModelError.message : ModelError → String
  | .duplicateActor name => "Duplicate actor: " ++ name
  | .duplicateUseCase name => "Duplicate use case: " ++ name
  | .duplicateStep name => "Duplicate step: " ++ name
  | .duplicateFlow useCase flow => "Duplicate flow " ++ flow ++ " in use case " ++ useCase
  | .unknownActor step actor => "Step " ++ step ++ " references unknown actor: " ++ actor
  | .emptyFlow useCase flow => "Flow " ++ flow ++ " in use case " ++ useCase ++ " has no steps"

/-- Why an operation on a queue fails. -/
inductive QueueError where
  /-- The queue takes no more messages. -/
  | stopped (queue : String)
  /-- The worker could not be started. -/
  | workerSpawn (queue reason : String)
  /-- The worker died while it handled a message. -/
  | workerPanicked (queue : String)
  deriving DecidableEq, Repr

/-- The wording of a queue error. -/
def QueueError.message : QueueError → String
  | .stopped queue => "Event queue " ++ queue ++ " is stopped"
  | .workerSpawn queue reason =>
    "Failed to start worker for event queue " ++ queue ++ ": " ++ reason
  | .workerPanicked queue => "Worker of event queue " ++ queue ++ " panicked"

/-- A runner that hands a message to a queue sees a queue error as a failed delivery. -/
def QueueError.toRunnerError (e : QueueError) : RunnerError := .delivery e.message

/-- Why settings are refused. -/
inductive SettingsError where
  | invalidValue (key value : String)
  deriving DecidableEq, Repr

/-- The wording of a settings error. -/
def SettingsError.message : SettingsError → String
  | .invalidValue key value => "Invalid configuration value for " ++ key ++ ": " ++ value

end UseCaseEngine
