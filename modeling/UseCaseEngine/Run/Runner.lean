import UseCaseEngine.Run.Cursor
import UseCaseEngine.Run.Request
import UseCaseEngine.Settings

/-!
# Runners

A runner is what it was told (its settings, hook, publisher and acting actor), the model that it
runs with its cursor in it, what it is doing now, and a recording of what it did.

* **Activity** (`Activity`): the gate of a runner. `label` is the step that a refused call is blamed
  on, the one started last or none yet.
* **Recordings** (`Recording`): `start` clears the log, `record` adds a step's name and the type of
  what it reacted to, `stop` keeps what there is.
* **Runners** (`Runner`): `working` is the cursor of the call in progress; `cursor` is the committed
  one, which inspections look at.

* `Recording.steps_record`, `Recording.types_record`: what is recorded is added at the end, and
  nothing is recorded unless recording is on.
-/

namespace UseCaseEngine

/-- What a runner is doing. -/
inductive Activity where
  | idle
  /-- A call is in progress and has not started a step yet. -/
  | resolving
  /-- A call is in progress, and this is the step it started last. -/
  | reacting (step : String)
  deriving DecidableEq, Repr

/-- The step that a refused call is blamed on. -/
def Activity.label : Activity → String
  | .reacting step => step
  | _ => "(resolving)"

/-- A log of the steps that reacted, and of the types of what they reacted to. Both lists have the
latest entry first. -/
structure Recording where
  enabled : Bool := false
  /-- The names of the steps. -/
  stepLog : List String := []
  /-- The types of the messages. -/
  typeLog : List MessageType := []
  deriving DecidableEq, Repr

namespace Recording

/-- Clears the log and adds to it from now on. -/
def start (_ : Recording) : Recording := { enabled := true, stepLog := [], typeLog := [] }

/-- Adds nothing from now on. -/
def stop (r : Recording) : Recording := { r with enabled := false }

/-- Adds an entry if recording is on. -/
def record (r : Recording) (step : String) (type : MessageType) : Recording :=
  if r.enabled then { r with stepLog := step :: r.stepLog, typeLog := type :: r.typeLog } else r

/-- The names of the steps, in order. -/
def steps (r : Recording) : List String := r.stepLog.reverse

/-- The types of the messages, in order. -/
def types (r : Recording) : List MessageType := r.typeLog.reverse

@[simp] theorem steps_start (r : Recording) : r.start.steps = [] := rfl

@[simp] theorem steps_stop (r : Recording) : r.stop.steps = r.steps := rfl

theorem steps_record (r : Recording) (step : String) (type : MessageType) :
    (r.record step type).steps = if r.enabled then r.steps ++ [step] else r.steps := by
  unfold record
  split <;> simp [steps]

theorem types_record (r : Recording) (step : String) (type : MessageType) :
    (r.record step type).types = if r.enabled then r.types ++ [type] else r.types := by
  unfold record
  split <;> simp [types]

end Recording

/-- A runner. -/
structure Runner (S : Signature) where
  settings : RunnerSettings := {}
  /-- The model that was run last. -/
  model : Option S.ModelName := none
  cursor : Cursor := {}
  /-- The cursor of the call in progress, which commits it from time to time. -/
  working : Cursor := {}
  actor : String := Actor.user
  running : Bool := false
  recording : Recording := {}
  /-- Without a hook, steps react unhindered. -/
  hook : Option S.HookName := none
  /-- Without a publisher, what it would get is dropped. -/
  publisher : Option S.PublisherName := none
  activity : Activity := .idle

end UseCaseEngine
