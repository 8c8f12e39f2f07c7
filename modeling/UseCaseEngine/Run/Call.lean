import UseCaseEngine.Run.World

/-!
# Calls on runners

A call makes a runner run a model or react to a message. A call resolves a step, offers it to the
hook, lets it react, moves the cursor, delivers what it publishes, and goes on with system steps
until none is left; a failed step hands over to a step that handles its failure.

* **Requests** (`perform`): what user code asks for, on a runner (`stop`, `set_acting_actor`,
  `start_recording`, `stop_recording`, `set_reaction_hook`, `publish_with`, `acting_actor`,
  `latest_step`, `recorded_step_names`), a queue (`put`, `stop`) or the collector.
* **Inspections** (`inquire`, `canReact`): `steps_that_can_react_to` and `can_react_to`. They look
  at the committed cursor, whatever the runner is doing.
* **Sessions** (`Session`): `resolve`, `execute`, `deliver`, `publish` and `react` are the steps of
  a call; `offer` is what `execute` does up to the delivery, `applyReaction` the reaction's effect
  on the cursor, `continueWith` is `continue_automatically`, and `handleFailure` is
  `route_exception`.
* **Calls** (`call`): `react_to` and `run`, with the gate in front of them (`enter`): a runner that
  is in a call refuses another one and names the step that it started last (`mark_reacting`).

User code may call runners in turn. A runner that is in a call refuses another one, so calls nest
at most as deep as there are runners: `callWithin depth` answers calls whose own calls nest up to
`depth`, and `call` allows for all runners.

Out of scope: several calls on one runner at the same time, since calls from other threads wait for
the one in progress and come one after another; user code that ends a call by dying; and what is
logged. `react_to_all` is `react_to` for one message after another. The events that are noted are
not part of any answer.

* `callWithin_of_busy`: a runner that is in a call refuses, at any depth, and nothing changes.
-/

namespace UseCaseEngine

variable {S : Signature}

/-- How calls are answered. -/
abbrev Calls (S : Signature) := RunnerId S → Call S → Effect S CallResult

/-- Clears a runner's log and records from now on. -/
def startRecording (r : RunnerId S) : Effect S Unit := do
  Effect.modifyRunner r fun x => { x with recording := x.recording.start }
  Effect.note (.recording r true)

section Perform

variable (app : Application S) (calls : Calls S)

/-- What a request does, given how calls are answered. -/
def perform : (q : Request S) → Effect S q.Answer
  | .readState => Effect.state
  | .writeState state => fun w => ((), { w with state })
  | .call r c => calls r c
  | .stop r => Effect.modifyRunner r fun x => { x with running := false }
  | .actAs r actor => Effect.modifyRunner r fun x => { x with actor }
  | .startRecording r => startRecording r
  | .stopRecording r => do
    Effect.modifyRunner r fun x => { x with recording := x.recording.stop }
    Effect.note (.recording r false)
  | .setHook r hook => Effect.modifyRunner r fun x => { x with hook := some hook }
  | .setPublisher r publisher =>
    Effect.modifyRunner r fun x => { x with publisher := some publisher }
  | .actingActor r => fun w => ((w.runner r).actor, w)
  | .latestStep r => fun w =>
    let x := w.runner r
    ((do let step ← (app.model (← x.model)).step? (← x.cursor.latest)
         return step.name), w)
  | .recordedSteps r => fun w => ((w.runner r).recording.steps, w)
  | .put q m => fun w =>
    match (w.queue q).put m with
    | (x, .ok ()) => (.ok (), (w.setQueue q x).note (.accepted q m))
    | (x, .error e) => (.error e, w.setQueue q x)
  | .stopQueue q => Effect.onQueue q Queue.stop
  | .sample s => fun w => ((), { w with metrics := w.metrics.record s })
  | .startTiming => fun w => ((), { w with stopwatch := w.stopwatch.start })
  | .sampleDuration name labels => fun w =>
    let (duration, stopwatch) := w.stopwatch.stop
    let s : Sample := { name, value := duration.toFloat, type := .histogram, labels }
    ((), { w with stopwatch, metrics := w.metrics.record s })

/-- Whether a guard holds. -/
def evalGuard (g : Guard S) : Effect S Bool := g.run (perform app calls)

/-- The names of the steps that could react to a message of the type, whatever the runner is doing
and whether it is running or not. -/
def inquire (q : Inquiry S) : Effect S (Except RunnerError (List String)) := do
  let x ← Effect.runner q.runner
  match x.model with
  | none => return .ok []
  | some model =>
    let found ← (candidates (evalGuard app calls) (app.model model) x.cursor x.actor q.type
      .normal).run
    return found.map fun steps => steps.map (·.name)

/-- Whether some step could react to a message of the type. -/
def canReact (q : Inquiry S) : Effect S (Except RunnerError Bool) := do
  return (← inquire app calls q).map fun names => !names.isEmpty

/-- What a request or an inquiry does. -/
def answer : (q : Request S ⊕ Inquiry S) → Effect S ((codeInterface S).Answer q)
  | .inl q => perform app calls q
  | .inr q => inquire app calls q

/-- What user code other than a guard does. -/
def exec {α : Type} (p : Action S α) : Effect S α := p.run (answer app calls)

end Perform

/-- A call in progress: the runner, the model it runs, and the hook it had when the call began. The
call works on a cursor of its own, which it commits after every step that reacted. -/
structure Session (S : Signature) where
  runner : RunnerId S
  model : Model (code S)
  hook : Hook S
  limit : Nat

/-- What became of a step that was offered. -/
inductive Reacted where
  /-- The hook did not let it react. -/
  | suppressed
  /-- It reacted, and this is left of what it published. -/
  | published (message : Option Message)
  /-- It reacted and failed. -/
  | failed (failure : Failure)

namespace Session

variable (app : Application S) (calls : Calls S) (s : Session S)

/-- The step that takes a message of the type, at the call's cursor and for the runner's actor. -/
def resolve (type : MessageType) (scope : Scope) : Attempt S (Option (Step (code S))) := do
  let x ← Effect.runner s.runner
  let state ← (Effect.state : Effect S S.State)
  match ← UseCaseEngine.resolve (evalGuard app calls) s.model x.working x.actor type scope with
  | none => return none
  | some step =>
    Effect.note (.resolved s.runner step.id scope x.working x.actor state)
    return some step

/-- The user code of a step; without any, nothing comes of it. -/
def execReaction (step : Step (code S)) (m : Message) : Effect S Output :=
  match step.reaction with
  | .function code => exec app calls (code m)
  | _ => pure (.ok none)

/-- The step's own reaction. -/
def trigger (step : Step (code S)) (m : Message) : Effect S Output := do
  let output ← execReaction app calls step m
  Effect.note (.triggered s.runner step.id m output)
  return output

/-- The step's reaction inside the hook; nothing if the hook does not let it react. -/
def around (step : Step (code S)) (m : Message) : Effect S (Option Output) := do
  Effect.note (.offered s.runner step.id m)
  match ← exec app calls (s.hook step m) with
  | .suppress _ => return none
  | .trigger after =>
    let output ← exec app calls (after (← s.trigger app calls step m))
    Effect.note (.reacted s.runner step.id m output (← Effect.state))
    return some output

/-- Gives what a step published to the actor it is meant for, if that actor has an inbox; the
actor's reply is dropped. Anything else is left over. -/
def deliver (step : Step (code S)) : Option Message → Attempt S (Option Message)
  | none => return none
  | some m =>
    match step.publishTo with
    | none => return some m
    | some actor =>
      match (s.model.actorNamed? actor).bind (·.inbox) with
      | none => return some m
      | some inbox => do
        Effect.note (.delivered s.runner actor m)
        let _ ← ExceptT.mk (exec app calls (inbox m))
        return none

/-- Commits the call's cursor after a step took its turn. -/
def commit (turn : Turn) : Effect S Unit := do
  Effect.modifyRunner s.runner fun x => { x with cursor := x.working }
  Effect.note (.moved s.runner turn)

/-- Moves the call's cursor past a step that it has reached and that did not fail. Gives what the
conditions for repeating answered that were asked meanwhile. -/
def applyReaction (step : Step (code S)) : Effect S (Except RunnerError Unit × List Bool) := do
  let x ← Effect.runner s.runner
  let ((c, applied), answers) ←
    (Cursor.apply (heard (evalGuard app calls)) s.model x.working step).run []
  Effect.modifyRunner s.runner fun x => { x with working := c }
  return (applied, answers)

/-- Offers a message to a step. A step that reacts becomes the latest one and is recorded, also
if it fails; without a failure it has its effect on the cursor, and what it publishes is
delivered. -/
def offer (step : Step (code S)) (m : Message) : Attempt S Reacted := do
  Effect.modifyRunner s.runner fun x => { x with activity := .reacting step.name }
  match ← s.around app calls step m with
  | none => return .suppressed
  | some output =>
    Effect.modifyRunner s.runner fun x =>
      { x with
        working := x.working.reached step
        recording := x.recording.record step.name m.type }
    match output with
    | .ok message =>
      let (applied, answers) ← s.applyReaction app calls step
      s.commit ⟨step.id, m, output, answers⟩
      match applied with
      | .error e => throw e
      | .ok () => return .published (← s.deliver app calls step message)
    | .error failure =>
      s.commit ⟨step.id, m, output, []⟩
      return .failed failure

/-- Lets the step that handles a failure react to it. The failure stays uncaught if there is none
or the hook does not let it react; a failure of the handler is not handled. -/
def handleFailure (failed : Step (code S)) (failure : Failure) : Attempt S (Option Message) := do
  match ← s.resolve app calls failure.type .failure with
  | none => throw (RunnerError.uncaughtReaction failed.name failure)
  | some handler =>
    match ← s.offer app calls handler failure.condition with
    | .suppressed => throw (RunnerError.uncaughtReaction failed.name failure)
    | .published message => return message
    | .failed failure => throw (RunnerError.uncaughtReaction handler.name failure)

/-- Executes a step: offers it the message, and handles its failure if it fails. Gives what is
left of what was published, or nothing if the step was suppressed. -/
def execute (step : Step (code S)) (m : Message) : Attempt S (Option (Option Message)) := do
  match ← s.offer app calls step m with
  | .suppressed => return none
  | .published message => return some message
  | .failed failure =>
    if step.handlesFailure then throw (RunnerError.uncaughtReaction step.name failure)
    else return some (← s.handleFailure app calls step failure)

/-- Gives a message to the runner's publisher. -/
def publish (m : Message) : Effect S Unit := do
  match (← Effect.runner s.runner).publisher with
  | none => return ()
  | some publisher =>
    Effect.note (.published s.runner m)
    exec app calls (app.publisher publisher m)

/-- Executes system steps until none can react, at most as many as are left. What the step before
published goes to the publisher as soon as another step has executed. -/
def continueWith : Nat → Option Message → Attempt S (Option Message)
  | left, pending => do
    match ← s.resolve app calls .systemEvent .normal with
    | none => return pending
    | some step =>
      match left with
      | 0 => throw (RunnerError.infiniteRepetition step.name s.limit)
      | left + 1 =>
        match ← s.execute app calls step .systemEvent with
        | none => return pending
        | some message =>
          match pending with
          | some previous => s.publish app calls previous
          | none => pure ()
          continueWith left message

/-- Reacts to a message and continues. -/
def react (m : Message) : Attempt S (Option Message) := do
  match ← s.resolve app calls m.type .normal with
  | none => return none
  | some step =>
    match ← s.execute app calls step m with
    | none => return none
    | some message => s.continueWith app calls s.limit message

/-- Goes on from the start of the model. What is published goes to the publisher. -/
def begin : Attempt S (Option Message) := do
  match ← s.continueWith app calls s.limit none with
  | none => return none
  | some message =>
    s.publish app calls message
    return none

end Session

section Call

variable (app : Application S) (calls : Calls S) (r : RunnerId S)

/-- The session of a call on a runner with a model, which starts from the runner's cursor. -/
def openSession (model : S.ModelName) : Effect S (Session S) := do
  Effect.modifyRunner r fun x => { x with working := x.cursor }
  let x ← Effect.runner r
  return {
    runner := r
    model := app.model model
    hook := (x.hook.map app.hook).getD Hook.callThrough
    limit := x.settings.maxContinuations.toNat }

/-- Starts a recording if the runner is to record from the start of a run. -/
def recordFromStart : Effect S Unit := do
  let x ← Effect.runner r
  match x.settings.recordFromStart with
  | true => startRecording r
  | false => return ()

/-- Reacts to a message, if the runner is running. -/
def reactTo (m : Message) : Attempt S (Option Message) := do
  let x ← Effect.runner r
  match x.running, x.model with
  | true, some model => (← openSession app r model).react app calls m
  | _, _ => return none

/-- Runs a model from its start. -/
def runModel (model : S.ModelName) : Attempt S (Option Message) := do
  Effect.modifyRunner r fun x => { x with model := some model, cursor := {}, running := true }
  Effect.note (.ran r model)
  recordFromStart r
  (← openSession app r model).begin app calls

/-- Does what a call asks for. -/
def serve : Call S → Attempt S (Option Message)
  | .react m => reactTo app calls r m
  | .run model => runModel app calls r model

/-- Refuses a call as nested. -/
def refuse : Effect S CallResult := do
  let label := (← Effect.runner r).activity.label
  Effect.note (.refused r label)
  return .error (.nestedCall label)

/-- Accepts a call: the runner is busy until it ends, however it ends. -/
def occupy (c : Call S) : Effect S CallResult := do
  Effect.note (.entered r)
  Effect.modifyRunner r fun x => { x with activity := .resolving }
  let result ← (serve app calls r c).run
  Effect.modifyRunner r fun x => { x with activity := .idle }
  Effect.note (.left r)
  return result

end Call

/-- Answers calls whose own calls nest up to a depth. -/
def callWithin (app : Application S) : Nat → Calls S
  | 0 => fun r _ => refuse r
  | depth + 1 => fun r c => do
    match (← Effect.runner r).activity with
    | .idle => occupy app (callWithin app depth) r c
    | _ => refuse r

/-- Answers a call. -/
def call (app : Application S) : Calls S := callWithin app S.runners

theorem callWithin_of_busy (app : Application S) (depth : Nat) (r : RunnerId S) (c : Call S)
    (w : World S) (h : (w.runner r).activity ≠ .idle) :
    callWithin app depth r c w = refuse r w := by
  cases depth with
  | zero => rfl
  | succ depth =>
    simp only [callWithin, Effect.runner, bind, StateT.bind]

end UseCaseEngine
