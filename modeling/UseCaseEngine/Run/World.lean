import UseCaseEngine.Queue
import UseCaseEngine.Run.Candidates
import UseCaseEngine.Run.Runner
import UseCaseEngine.Stopwatch

/-!
# The world that programs act on

A `World` is everything that changes: the state of the application, the runners, the queues, the
collected metrics. It holds data only, and a journal of what happened.

* **Events** (`Event`): what is noted as it happens, by calls of their own steps and by queues of
  their messages. They are what results about runs speak of; no program can ask for them.
* **Effects** (`Effect`, `Attempt`): computations on a world, one after another. An error does not
  undo what was done before.

Out of scope: parties that act on a world at the same time.

* `runner_setRunner_self`, `runner_setRunner_of_ne`: setting a runner changes that runner only.
* `queue_setQueue_self`, `queue_setQueue_of_ne`: the same for queues.
-/

namespace UseCaseEngine

variable {S : Signature}

/-! ## The journal -/

/-- Something that happened. -/
inductive Event (S : Signature) where
  /-- A call on the runner was admitted. -/
  | entered (r : RunnerId S)
  /-- A call on the runner was refused, and blamed on the step. -/
  | refused (r : RunnerId S) (step : String)
  /-- The call that was admitted ended. -/
  | left (r : RunnerId S)
  /-- The runner was put at the start of the model. -/
  | ran (r : RunnerId S) (model : S.ModelName)
  /-- Recording was started afresh, or stopped. -/
  | recording (r : RunnerId S) (on : Bool)
  /-- The step was resolved, at this cursor, for this actor and in this state. -/
  | resolved (r : RunnerId S) (step : StepId) (scope : Scope) (c : Cursor) (actor : String)
    (state : S.State)
  /-- The step was offered to the hook. -/
  | offered (r : RunnerId S) (step : StepId) (message : Message)
  /-- The step reacted with an output. -/
  | triggered (r : RunnerId S) (step : StepId) (message : Message) (output : Output)
  /-- The hook made an output of it, and left the application in this state. -/
  | reacted (r : RunnerId S) (step : StepId) (message : Message) (output : Output)
    (state : S.State)
  /-- The step became the latest, had its effect, and the cursor was committed. -/
  | moved (r : RunnerId S) (turn : Turn)
  /-- What the step published was given to an actor. -/
  | delivered (r : RunnerId S) (actor : String) (message : Message)
  /-- What a step published was given to the publisher. -/
  | published (r : RunnerId S) (message : Message)
  /-- The queue accepted the message. -/
  | accepted (q : QueueId S) (message : Message)
  /-- The queue's worker took the message out. -/
  | taken (q : QueueId S) (message : Message)
  /-- The worker handed the message to the queue's consumer. -/
  | handed (q : QueueId S) (message : Message)
  /-- The queue's worker is done with the message. -/
  | consumed (q : QueueId S) (message : Message)

/-! ## Worlds -/

/-- Everything that changes. -/
structure World (S : Signature) where
  state : S.State
  runners : Vector (Runner S) S.runners
  queues : Vector Queue S.queues
  metrics : Metrics := {}
  stopwatch : Stopwatch := {}
  /-- What happened, the latest first. No answer depends on it; it is what can be said of a run. -/
  journal : List (Event S) := []

namespace World

/-- A runner. -/
def runner (w : World S) (r : RunnerId S) : Runner S := w.runners[r]

/-- The world with a runner replaced. -/
def setRunner (w : World S) (r : RunnerId S) (x : Runner S) : World S :=
  { w with runners := w.runners.set r x }

/-- A queue. -/
def queue (w : World S) (q : QueueId S) : Queue := w.queues[q]

/-- The world with a queue replaced. -/
def setQueue (w : World S) (q : QueueId S) (x : Queue) : World S :=
  { w with queues := w.queues.set q x }

/-- The world after something happened. -/
def note (w : World S) (e : Event S) : World S := { w with journal := e :: w.journal }

@[simp] theorem runner_setRunner_self (w : World S) (r : RunnerId S) (x : Runner S) :
    (w.setRunner r x).runner r = x := by
  simp [runner, setRunner]

theorem runner_setRunner_of_ne (w : World S) {r r' : RunnerId S} (h : r ≠ r') (x : Runner S) :
    (w.setRunner r x).runner r' = w.runner r' := by
  have : (r : Nat) ≠ r' := fun e => h (Fin.ext e)
  simp [runner, setRunner, this]

theorem setRunner_runner (w : World S) (r : RunnerId S) : w.setRunner r (w.runner r) = w := by
  simp [setRunner, runner]

theorem setRunner_setRunner (w : World S) (r : RunnerId S) (x y : Runner S) :
    (w.setRunner r x).setRunner r y = w.setRunner r y := by
  simp [setRunner]

theorem setRunner_comm (w : World S) {r r' : RunnerId S} (h : r ≠ r') (x y : Runner S) :
    (w.setRunner r x).setRunner r' y = (w.setRunner r' y).setRunner r x := by
  have : (r : Nat) ≠ r' := fun e => h (Fin.ext e)
  simp only [setRunner, Vector.set_comm _ _ this]

@[simp] theorem queue_setQueue_self (w : World S) (q : QueueId S) (x : Queue) :
    (w.setQueue q x).queue q = x := by
  simp [queue, setQueue]

theorem queue_setQueue_of_ne (w : World S) {q q' : QueueId S} (h : q ≠ q') (x : Queue) :
    (w.setQueue q x).queue q' = w.queue q' := by
  have : (q : Nat) ≠ q' := fun e => h (Fin.ext e)
  simp [queue, setQueue, this]

theorem setQueue_queue (w : World S) (q : QueueId S) : w.setQueue q (w.queue q) = w := by
  simp [setQueue, queue]

end World

/-- A computation that changes the world. -/
abbrev Effect (S : Signature) := StateM (World S)

/-- A computation that changes the world and may fail. What it changed before stays changed. -/
abbrev Attempt (S : Signature) := ExceptT RunnerError (Effect S)

namespace Effect

/-- The state of the application as it is now. -/
def state : Effect S S.State := fun w => (w.state, w)

/-- A runner as it is now. -/
def runner (r : RunnerId S) : Effect S (Runner S) := fun w => (w.runner r, w)

/-- Changes a runner. -/
def modifyRunner (r : RunnerId S) (f : Runner S → Runner S) : Effect S Unit :=
  fun w => ((), w.setRunner r (f (w.runner r)))

/-- Does something to a queue. -/
def onQueue {α : Type} (q : QueueId S) (f : Queue → Queue × α) : Effect S α :=
  fun w => ((f (w.queue q)).2, w.setQueue q (f (w.queue q)).1)

/-- Notes that something happened. -/
def note (e : Event S) : Effect S Unit := fun w => ((), w.note e)

end Effect

end UseCaseEngine