import UseCaseEngine.Run.Delivery
import UseCaseEngine.Script.Meaning

/-!
# Sessions

A session performs operations on runners and queues one after another and reports on each: what it
came to, what was logged, and how the runners and the variables stand afterwards. Queues that are
not held deliver after every operation until nothing waits; the worker of a held queue takes one
message out and waits with it.
-/

namespace UseCaseEngine.Script

variable {k : Shape}

/-- What a session has: its models, and what each queue does with its messages. -/
structure Cast (k : Shape) where
  models : Vector (Model (code k.signature)) k.models
  consumers : Vector (String × Handler k) k.queues

/-- The code of a session: hooks and publishers are their own names. -/
def Cast.application (cast : Cast k) : Application k.signature where
  model name := cast.models.get name
  hook := HookSpec.hook
  publisher := publisher
  consumer q m := let (name, handler) := cast.consumers.get q; handler.receive name m

/-- An operation. -/
inductive Operation (k : Shape) where
  | run (r : Fin k.runners) (model : Fin k.models)
  | stop (r : Fin k.runners)
  | actAs (r : Fin k.runners) (actor : String)
  | startRecording (r : Fin k.runners)
  | stopRecording (r : Fin k.runners)
  | setHook (r : Fin k.runners) (hook : HookSpec k)
  | setPublisher (r : Fin k.runners) (publisher : List (Statement k))
  | set (var : String) (n : Int)
  | react (r : Fin k.runners) (m : Message)
  /-- React to each message in turn, up to the first error. -/
  | reactAll (r : Fin k.runners) (ms : List Message)
  /-- Tell whether some step could react. -/
  | canReact (r : Fin k.runners) (type : MessageType)
  /-- Tell which steps could react. -/
  | steps (r : Fin k.runners) (type : MessageType)
  | recorded (r : Fin k.runners)
  | runnerInfo (r : Fin k.runners)
  /-- React to one message as often as several callers ask for it, each several times. -/
  | callers (r : Fin k.runners) (callers times : Nat) (m : Message)
  | metrics
  | total (name key value : String)
  /-- Tell what the cart of a model holds. -/
  | cart (model : Nat)
  | put (q : Fin k.queues) (m : Message)
  /-- Put a message as a handler does. -/
  | handle (q : Fin k.queues) (m : Message)
  | queueInfo (q : Fin k.queues)
  | stopQueue (q : Fin k.queues)
  | hold (q : Fin k.queues)
  | release (q : Fin k.queues)

/-- Why an operation fails. -/
inductive Fault where
  | runner (e : RunnerError)
  | queue (e : QueueError)

/-- What an operation comes to. -/
inductive Value where
  | nothing
  | message (m : Option Message)
  | messages (ms : List (Option Message))
  | flag (b : Bool)
  | names (names : List String)
  | recording (r : Recording)
  | runnerInfo (model : Option String) (settings : RunnerSettings) (text : String)
  | counts (published quiet errors : Nat)
  | samples (samples : List Sample)
  | total (x : Float)
  | cart (c : Cart)
  | queueInfo (q : Queue)

/-- How a runner stands: its latest step, whether it is running, and its acting actor. -/
structure Standing where
  latest : Option String
  running : Bool
  actor : String
  deriving DecidableEq, Repr

/-- What is reported on an operation. -/
structure Report where
  result : Except Fault Value
  lines : List String
  runners : List Standing
  vars : List (String × Int)

/-- The state of a session between operations. -/
structure Stage (k : Shape) where
  world : World k.signature
  held : List (Fin k.queues) := []

section Perform

variable (cast : Cast k)

/-- The name of a runner's model. -/
def modelName? (x : Runner k.signature) : Option String :=
  x.model.map fun m => (cast.application.model m).name

/-- The text that shows a runner. -/
def runnerText (x : Runner k.signature) : String :=
  structureText "ModelRunner"
    [("config", x.settings.structureText),
     ("model", Text.optional ((modelName? cast x).map Text.quoted)),
     ("running", toString x.running)]

/-- Reacts to messages up to the first error. -/
def reactAll (r : Fin k.runners) : List Message → Attempt k.signature (List (Option Message))
  | [] => return []
  | m :: rest => do
    let reply ← ExceptT.mk (call cast.application r (.react m))
    return reply :: (← reactAll r rest)

/-- Reacts to a message several times, and counts the outcomes. -/
def reactTimes (r : Fin k.runners) (m : Message) :
    Nat → (published quiet errors : Nat) → Effect k.signature Value
  | 0, published, quiet, errors => return .counts published quiet errors
  | n + 1, published, quiet, errors => do
    match ← call cast.application r (.react m) with
    | .ok (some _) => reactTimes r m n (published + 1) quiet errors
    | .ok none => reactTimes r m n published (quiet + 1) errors
    | .error _ => reactTimes r m n published quiet (errors + 1)

/-- Stops a queue from outside. A worker that waits with a message stops the queue itself before
it handles the message. -/
def stopQueue (q : Fin k.queues) : Effect k.signature (Except QueueError Unit) := fun w =>
  let x := w.queue q
  match x.worker, x.inHand with
  | .alive, some _ =>
    let w := w.setQueue q (x.start.stop.1)
    let (_, w) := handleTaken cast.application q w
    (.ok (), w)
  | _, _ => Effect.onQueue q Queue.stop w

/-- A result without a value worth reporting. -/
def quiet {ε : Type} (fault : ε → Fault) : Except ε Unit → Except Fault Value
  | .ok _ => .ok .nothing
  | .error e => .error (fault e)

/-- The answer to a request, in a session. -/
def request (q : Request k.signature) : Effect k.signature q.Answer :=
  perform cast.application (call cast.application) q

/-- What an operation does. Holding and releasing queues is not among it. -/
def operate : Operation k → Effect k.signature (Except Fault Value)
  | .run r model => do
    match ← call cast.application r (.run model) with
    | .ok _ => return .ok .nothing
    | .error e => return .error (.runner e)
  | .stop r => do
    request cast (.stop r)
    return .ok .nothing
  | .actAs r actor => do
    request cast (.actAs r actor)
    return .ok .nothing
  | .startRecording r => do
    request cast (.startRecording r)
    return .ok .nothing
  | .stopRecording r => do
    request cast (.stopRecording r)
    return .ok .nothing
  | .setHook r hook => do
    request cast (.setHook r hook)
    return .ok .nothing
  | .setPublisher r publisher => do
    request cast (.setPublisher r publisher)
    return .ok .nothing
  | .set var n => fun w =>
    let s : State := w.state
    (.ok .nothing, { w with state := s.set var n })
  | .react r m => do
    match ← call cast.application r (.react m) with
    | .ok reply => return .ok (.message reply)
    | .error e => return .error (.runner e)
  | .reactAll r ms => do
    match ← (reactAll cast r ms).run with
    | .ok replies => return .ok (.messages replies)
    | .error e => return .error (.runner e)
  | .canReact r type => do
    match ← UseCaseEngine.canReact cast.application (call cast.application) ⟨r, type⟩ with
    | .ok able => return .ok (.flag able)
    | .error e => return .error (.runner e)
  | .steps r type => do
    match ← inquire cast.application (call cast.application) ⟨r, type⟩ with
    | .ok steps => return .ok (.names steps)
    | .error e => return .error (.runner e)
  | .recorded r => fun w => (.ok (.recording (w.runner r).recording), w)
  | .runnerInfo r => fun w =>
    let x := w.runner r
    (.ok (.runnerInfo (modelName? cast x) x.settings (runnerText cast x)), w)
  | .callers r callers times m => do
    return .ok (← reactTimes cast r m (callers * times) 0 0 0)
  | .metrics => fun w => (.ok (.samples w.metrics.samples), w)
  | .total name key value => fun w => (.ok (.total (w.metrics.total name key value)), w)
  | .cart model => fun w => let s : State := w.state; (.ok (.cart (s.cart model)), w)
  | .put q m => do
    let result : Except QueueError Unit ← request cast (.put q m)
    return quiet .queue result
  | .handle q m => do
    let result : Except QueueError Unit ← request cast (.put q m)
    return quiet (fun e => .runner e.toRunnerError) result
  | .queueInfo q => fun w => (.ok (.queueInfo (w.queue q)), w)
  | .stopQueue q => do return quiet .queue (← stopQueue cast q)
  | .hold _ => return .ok .nothing
  | .release _ => return .ok .nothing

/-- The queues that are held once an operation is done. -/
def heldAfter (held : List (Fin k.queues)) : Operation k → List (Fin k.queues)
  | .hold q => if held.contains q then held else q :: held
  | .release q => held.filter (· != q)
  | _ => held

/-- Lets the workers of several queues take a message each. -/
def takeEach : List (Fin k.queues) → Effect k.signature Unit
  | [] => pure ()
  | q :: rest => do
    takeNext (S := k.signature) q
    takeEach rest

/-- How many messages are delivered from a queue in one go, and how often all queues are looked
through, at most. -/
def deliveryLimit : Nat := 1000000

/-- Lets the queues that are not held deliver, and those that are held take a message out. -/
def settleQueues (held : List (Fin k.queues)) : Effect k.signature Unit := do
  let free := (List.finRange k.queues).filter fun q => !held.contains q
  drainAll cast.application deliveryLimit free deliveryLimit
  takeEach held

/-- How the runners stand. -/
def standings (w : World k.signature) : List Standing :=
  (List.finRange k.runners).map fun r =>
    let x := w.runner r
    { latest := do
        let step ← (cast.application.model (← x.model)).step? (← x.cursor.latest)
        return step.name
      running := x.running
      actor := x.actor }

/-- Performs an operation and reports on it. -/
def step (stage : Stage k) (op : Operation k) : Report × Stage k :=
  let (result, w) := operate cast op stage.world
  let held := heldAfter stage.held op
  let (_, w) := settleQueues cast held w
  let s : State := w.state
  let report : Report := {
    result
    lines := s.lines.reverse
    runners := standings cast w
    vars := s.vars }
  (report, { world := { w with state := { s with lines := [] } }, held })

/-- Performs operations in order. -/
def perform : Stage k → List (Operation k) → List Report × Stage k
  | stage, [] => ([], stage)
  | stage, op :: rest =>
    let (report, stage) := step cast stage op
    let (reports, stage) := perform stage rest
    (report :: reports, stage)

end Perform

end UseCaseEngine.Script
