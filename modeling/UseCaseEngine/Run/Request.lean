import UseCaseEngine.Error
import UseCaseEngine.Metrics
import UseCaseEngine.Model.Basic
import UseCaseEngine.Program

/-!
# What user code can ask for

User code is found by name: a `Signature` says what the names are and an `Application` what they
stand for, so a hook or a publisher can be replaced while a run is going on.

* **Requests** (`Request`): what any user code can ask for. Guards may ask for all of it.
* **Inquiries** (`Inquiry`): which steps of a runner can react. Answering one evaluates guards, so a
  guard that made one could ask about itself without end; only other code may make it.
* **Hooks** (`Hook`, `Advice`): `around`. A hook looks at the step and the message, and then lets
  the step react or not; what it does with the output comes after. `callThrough` does neither.
* **Applications** (`Application`): the models, hooks, publishers (`publish_with`) and consumers of
  queues (`start_named`).

Out of scope: some things that code could find out are not among the requests, namely whether a
runner is running (`is_running`) and which model it runs, of what types the recorded messages were
(`recorded_message_types`), how many messages wait in a queue and whether it was stopped (`size`,
`is_empty`, `is_stopped`), and which samples were collected (`samples`, `counter_total`). Code that
went by one of these could tell apart what `stopping_spec` (running or not), `fed_as_called` (what
a queue holds) and `traced_as_called_through` (samples collected or not) show to be the same for
all other code. Guards that inspect a runner, and code that calls from threads of its own, are out
of scope as well.
-/

namespace UseCaseEngine

/-- The names that an application uses, and how many runners and queues it has. -/
structure Signature where
  /-- The application's own state. -/
  State : Type
  ModelName : Type
  HookName : Type
  PublisherName : Type
  runners : Nat
  queues : Nat

variable {S : Signature}

/-- One of the runners. -/
abbrev RunnerId (S : Signature) := Fin S.runners

/-- One of the queues. -/
abbrev QueueId (S : Signature) := Fin S.queues

/-- What a call on a runner comes to: the message that is returned, or an error. -/
abbrev CallResult := Except RunnerError (Option Message)

instance : DecidableEq CallResult
  | .ok a, .ok b => decidable_of_iff (a = b) ⟨congrArg _, Except.ok.inj⟩
  | .error a, .error b => decidable_of_iff (a = b) ⟨congrArg _, Except.error.inj⟩
  | .ok _, .error _ => isFalse nofun
  | .error _, .ok _ => isFalse nofun

/-- A call on a runner. -/
inductive Call (S : Signature) where
  /-- React to a message. -/
  | react (message : Message)
  /-- Run a model from its start. -/
  | run (model : S.ModelName)

/-! ## Requests -/

/-- What any user code can ask for. -/
inductive Request (S : Signature) where
  | readState
  | writeState (state : S.State)
  | call (r : RunnerId S) (c : Call S)
  | stop (r : RunnerId S)
  | actAs (r : RunnerId S) (actor : String)
  | startRecording (r : RunnerId S)
  | stopRecording (r : RunnerId S)
  | setHook (r : RunnerId S) (hook : S.HookName)
  | setPublisher (r : RunnerId S) (publisher : S.PublisherName)
  | actingActor (r : RunnerId S)
  | latestStep (r : RunnerId S)
  | recordedSteps (r : RunnerId S)
  | put (q : QueueId S) (message : Message)
  | stopQueue (q : QueueId S)
  /-- Record a sample. -/
  | sample (s : Sample)
  /-- Start to measure a duration. -/
  | startTiming
  /-- Stop measuring, and record the duration as a sample. -/
  | sampleDuration (name : String) (labels : List (String × String))

/-- The answers to requests. -/
def Request.Answer : Request S → Type
  | .readState => S.State
  | .call _ _ => CallResult
  | .actingActor _ => String
  | .latestStep _ => Option String
  | .recordedSteps _ => List String
  | .put _ _ => Except QueueError Unit
  | .stopQueue _ => Except QueueError Unit
  | _ => Unit

/-- A question to a runner: which steps could react to a message of the type now? -/
structure Inquiry (S : Signature) where
  runner : RunnerId S
  type : MessageType

/-- What guards can ask for. -/
def guardInterface (S : Signature) : Interface := ⟨Request S, Request.Answer⟩

/-- What reactions, hooks, publishers, inboxes and consumers can ask for. -/
def codeInterface (S : Signature) : Interface :=
  ⟨Request S ⊕ Inquiry S, Sum.elim Request.Answer fun _ => Except RunnerError (List String)⟩

/-- A guard: a program that decides. -/
abbrev Guard (S : Signature) := Program (guardInterface S) Bool

/-- Any other user code. -/
abbrev Action (S : Signature) := Program (codeInterface S)

/-- The program that makes a request. -/
def Action.request (q : Request S) : Action S q.Answer := .ask (Sum.inl q) .done

/-- The program that makes an inquiry. -/
def Action.inquire (q : Inquiry S) : Action S (Except RunnerError (List String)) :=
  .ask (Sum.inr q) .done

/-- A runner as a handler of messages: it reacts. -/
def Action.toRunner (r : RunnerId S) (m : Message) : Action S CallResult :=
  Action.request (.call r (.react m))

/-- A queue as a handler of messages: it accepts them, and replies nothing. -/
def Action.toQueue (q : QueueId S) (m : Message) : Action S CallResult := do
  let result : Except QueueError Unit ← Action.request (.put q m)
  match result with
  | .ok _ => return .ok none
  | .error e => return .error e.toRunnerError

/-- A guard as a program of the other kind. -/
def Guard.toAction {α : Type} (g : Program (guardInterface S) α) : Action S α :=
  g.interpret Action.request

/-- The user code in the models of an application. -/
abbrev code (S : Signature) : Code where
  Guard := Guard S
  Reaction := Message → Action S Output
  Inbox := Message → Action S CallResult

/-- What a hook makes of a step that is about to react. -/
inductive Advice (S : Signature) where
  /-- Do not let it react. The output stands for nothing. -/
  | suppress (output : Output)
  /-- Let it react, and make an output of its own. -/
  | trigger (after : Output → Action S Output)

/-- A hook stands around the reactions of a runner's steps. -/
abbrev Hook (S : Signature) := Step (code S) → Message → Action S (Advice S)

/-- The hook that lets every step react and leaves its output alone. -/
def Hook.callThrough : Hook S := fun _ _ => .done (.trigger .done)

/-- What the consumer of a queue makes of a message. -/
inductive Receipt where
  | handled (result : CallResult)
  /-- The worker does not survive it. -/
  | crashed

/-- What the names of a signature stand for. -/
structure Application (S : Signature) where
  model : S.ModelName → Model (code S)
  hook : S.HookName → Hook S
  publisher : S.PublisherName → Message → Action S Unit
  /-- What the worker of a queue does with a message. -/
  consumer : QueueId S → Message → Action S Receipt

end UseCaseEngine
