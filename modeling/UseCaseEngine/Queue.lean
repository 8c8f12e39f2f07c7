import UseCaseEngine.Error
import UseCaseEngine.Model.Text

/-!
# Queues

A queue keeps messages in arrival order for one worker, which takes them out one at a time and
handles each to its end before it takes the next. A queue that is stopped accepts nothing more, and
its worker handles no message that it has not taken out yet; what waits then stays where it is.
A worker that dies while it handles a message leaves the queue without one.

Here each operation is done as a whole, before anybody begins another one:

* **Putting** (`put`): looks whether the queue was stopped, counts the message and sends it.
* **The worker** (`take?`, `start`, `finish`): `drain` receives a message, looks whether the queue
  was stopped, and counts it off; `dispatch` has the consumer handle it, to the end or to its death.
* **Stopping** (`stop`): raises the flag, signals the worker, and joins it unless the worker itself
  made the call. A worker that has a message in hand counts as ended from then on, though that
  message is handled yet; nobody waits for it here.

Out of scope here: what the operations of several parties come to when their steps are mixed. In
that form the counter is `Counter`, and stopping is `Service`; both are tied to these operations.
Out of scope altogether: a worker that cannot be started, and queues that are dropped, which stops
them.

* `put_eq_ok_iff`, `put_of_error`: what a queue accepts, and that a refusal changes nothing.
* `put_waiting`, `take?_waiting`: messages go in at one end and come out at the other.
* `take?_of_stopped`, `stop_of_stopped`: a stopped queue gives nothing out, and stays stopped.
-/

namespace UseCaseEngine

/-- What became of a queue's worker. -/
inductive Worker where
  | alive
  /-- It ended because the queue was stopped. -/
  | ended
  /-- It died while it handled a message. -/
  | crashed
  deriving DecidableEq, Repr

/-- A queue with one worker. -/
structure Queue where
  name : String := "casemodel-queue"
  /-- The messages that were accepted and not taken out, oldest first. -/
  waiting : List Message := []
  /-- How many messages wait. -/
  size : Nat := 0
  /-- The message that the worker took out and has not handled to its end. -/
  inHand : Option Message := none
  /-- The worker is handling the message in its hand. -/
  handling : Bool := false
  /-- The queue was told to stop. -/
  stopped : Bool := false
  worker : Worker := .alive
  deriving DecidableEq, Repr

namespace Queue

/-- Adds a message at the end. -/
def put (q : Queue) (m : Message) : Queue × Except QueueError Unit :=
  if q.stopped then (q, .error (.stopped q.name))
  else
    match q.worker with
    | .alive => ({ q with waiting := q.waiting ++ [m], size := q.size + 1 }, .ok ())
    | _ => (q, .error (.stopped q.name))

/-- The worker takes the oldest message out, if it is free to. -/
def take? (q : Queue) : Option (Message × Queue) :=
  match q.worker, q.stopped, q.inHand, q.waiting with
  | .alive, false, none, m :: rest =>
    some (m, { q with waiting := rest, size := q.size - 1, inHand := some m })
  | _, _, _, _ => none

/-- The worker starts to handle the message in its hand. -/
def start (q : Queue) : Queue := { q with handling := true }

/-- The worker handled the message in its hand to its end, or died over it. -/
def finish (q : Queue) (died : Bool) : Queue :=
  { q with
    inHand := none
    handling := false
    worker := if died then .crashed else if q.stopped then .ended else q.worker }

/-- Stops the queue. Told so by its own worker it does not wait for the worker's end; otherwise it
does, and reports whether the worker died. Only the first time counts. -/
def stop (q : Queue) : Queue × Except QueueError Unit :=
  if q.stopped then (q, .ok ())
  else if q.handling then ({ q with stopped := true }, .ok ())
  else
    match q.worker with
    | .crashed => ({ q with stopped := true }, .error (.workerPanicked q.name))
    | _ => ({ q with stopped := true, worker := .ended }, .ok ())

/-- No message waits. -/
def isEmpty (q : Queue) : Bool := q.size == 0

/-- The text that shows a queue. -/
def structureText (q : Queue) : String :=
  UseCaseEngine.structureText "EventQueue"
    [("name", Text.quoted q.name), ("size", toString q.size), ("stopped", toString q.stopped)]

theorem put_eq_ok_iff (q : Queue) (m : Message) :
    (q.put m).2 = .ok () ↔ q.stopped = false ∧ q.worker = .alive := by
  unfold put
  cases q.stopped <;> cases q.worker <;> simp

/-- A message that is refused leaves the queue as it is. -/
theorem put_of_error {q : Queue} {m : Message} {e : QueueError} (h : (q.put m).2 = .error e) :
    (q.put m).1 = q := by
  unfold put at h ⊢
  cases hs : q.stopped <;> cases hw : q.worker <;> simp_all

theorem put_waiting {q : Queue} {m : Message} (hs : q.stopped = false) (hw : q.worker = .alive) :
    (q.put m).1.waiting = q.waiting ++ [m] := by
  simp [put, hs, hw]

theorem take?_waiting {q q' : Queue} {m : Message} (h : q.take? = some (m, q')) :
    q.waiting = m :: q'.waiting := by
  unfold take? at h
  split at h
  · rename_i hw
    simp only [Option.some.injEq, Prod.mk.injEq] at h
    rw [hw, ← h.1, ← h.2]
  · simp at h

theorem take?_of_stopped {q : Queue} (h : q.stopped = true) : q.take? = none := by
  unfold take?
  rw [h]
  split <;> simp_all

@[simp] theorem stop_stopped (q : Queue) : q.stop.1.stopped = true := by
  unfold stop
  cases hs : q.stopped
  · cases q.handling <;> cases q.worker <;> rfl
  · simpa using hs

theorem stop_of_stopped {q : Queue} (h : q.stopped = true) : q.stop = (q, .ok ()) := by
  simp [stop, h]

end Queue

end UseCaseEngine
