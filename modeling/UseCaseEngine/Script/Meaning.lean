import UseCaseEngine.Script.Language
import UseCaseEngine.Tracing

/-!
# What scripts do

Conditions become guards, statements reactions, hook rules hooks, and handlers inboxes and
consumers. The order of evaluation and of the lines that are logged is part of the meaning.

Out of scope: overflow of the variables, which are integers without bounds.
-/

namespace UseCaseEngine.Script

variable {k : Shape}

/-- A message type's name, a colon and the payload; an error's wording; or nothing. -/
def outcomeLine : CallResult → String
  | .ok none => "none"
  | .ok (some m) => m.label
  | .error e => "error " ++ e.message

/-! ## Conditions -/

/-- A request of a guard. -/
def askGuard (q : Request k.signature) : Program (guardInterface k.signature) q.Answer :=
  .ask q .done

/-- Changes the state of the scripts. -/
def changeGuard (f : State → State) : Program (guardInterface k.signature) Unit := do
  let s : State ← askGuard .readState
  askGuard (.writeState (f s))

mutual

/-- The guard that a condition describes. -/
def Condition.guard : Condition k → Guard k.signature
  | .const value => .done value
  | .compare c var n => do
    let s : State ← askGuard .readState
    return c.holds (s.get var) n
  | .negation c => do return !(← c.guard)
  | .all cs => guardAll cs
  | .any cs => guardAny cs
  | .trace label c => do
    let value ← c.guard
    changeGuard (·.log ("cond " ++ label ++ " " ++ toString value))
    return value
  | .tick var c => do
    changeGuard fun s => s.set var (s.get var + 1)
    c.guard
  | .acting r actor => do
    let acting : String ← askGuard (.actingActor r)
    return acting == actor
  | .react r m => do
    let result : CallResult ← askGuard (.call r (.react m))
    changeGuard (·.log ("cond react " ++ outcomeLine result))
    match result with
    | .ok _ => return true
    | .error _ => return false

/-- All of the conditions hold. -/
def guardAll : List (Condition k) → Guard k.signature
  | [] => .done true
  | c :: cs => do if ← c.guard then guardAll cs else return false

/-- One of the conditions holds. -/
def guardAny : List (Condition k) → Guard k.signature
  | [] => .done false
  | c :: cs => do if ← c.guard then return true else guardAny cs

end

/-! ## Statements -/

/-- Changes the state of the scripts. -/
def change (f : State → State) : Action k.signature Unit := do
  let s : State ← Action.request .readState
  Action.request (.writeState (f s))

/-- Logs a line. -/
def logLine (line : String) : Action k.signature Unit := change (·.log line)

/-- The line for the steps that could react. -/
def stepsLine : Except RunnerError (List String) → String
  | .ok steps => "steps " ++ ",".intercalate steps
  | .error e => "steps error " ++ e.message

mutual

/-- What a statement does, given the message received and what was published before. -/
def Statement.action (m : Message) (published : Option Message) :
    Statement k → Action k.signature Output
  | .set var n => do
    change (·.set var n)
    return .ok published
  | .add var n => do
    change fun s => s.set var (s.get var + n)
    return .ok published
  | .log text => do
    logLine text
    return .ok published
  | .logMessage => do
    logLine ("got " ++ m.label)
    return .ok published
  | .publish p => return .ok (some p)
  | .echo t => return .ok (some (t.message m.payload))
  | .fail p => return .error ⟨p⟩
  | .failEcho t => return .error ⟨t.message m.payload⟩
  | .failAgain => return .error ⟨.plain m.type m.payload⟩
  | .branch c yes no => do
    if ← Guard.toAction c.guard then actions m published yes else actions m published no
  | .react r p => do
    let result : CallResult ← Action.request (.call r (.react p))
    logLine ("react " ++ outcomeLine result)
    return .ok published
  | .run r model => do
    let result : CallResult ← Action.request (.call r (.run model))
    logLine ("run " ++ outcomeLine result)
    return .ok published
  | .stop r => do
    Action.request (.stop r)
    return .ok published
  | .actAs r actor => do
    Action.request (.actAs r actor)
    return .ok published
  | .startRecording r => do
    Action.request (.startRecording r)
    return .ok published
  | .stopRecording r => do
    Action.request (.stopRecording r)
    return .ok published
  | .logLatest r => do
    let latest : Option String ← Action.request (.latestStep r)
    logLine ("latest " ++ latest.getD "-")
    return .ok published
  | .logRecorded r => do
    let steps : List String ← Action.request (.recordedSteps r)
    logLine ("recorded " ++ ",".intercalate steps)
    return .ok published
  | .logSteps r type => do
    let steps ← Action.inquire ⟨r, type⟩
    logLine (stepsLine steps)
    return .ok published
  | .setHook r hook => do
    Action.request (.setHook r hook)
    return .ok published
  | .setPublisher r publisher => do
    Action.request (.setPublisher r publisher)
    return .ok published
  | .put q p => do
    let result : Except QueueError Unit ← Action.request (.put q p)
    logLine <| match result with
      | .ok _ => "put"
      | .error e => "put error " ++ e.message
    return .ok published
  | .stopQueue q => do
    let result : Except QueueError Unit ← Action.request (.stopQueue q)
    logLine <| match result with
      | .ok _ => "q_stop true"
      | .error _ => "q_stop false"
    return .ok published

/-- Statements in order, until one fails. -/
def actions (m : Message) (published : Option Message) :
    List (Statement k) → Action k.signature Output
  | [] => return .ok published
  | s :: rest => do
    match ← s.action m published with
    | .ok published => actions m published rest
    | .error failure => return .error failure

end

/-- The reaction that does the statements. -/
def reaction (ss : List (Statement k)) : Reaction (code k.signature) :=
  .function fun m => actions m none ss

/-- The reaction that does the statements, and neither publishes nor fails. -/
def consumption (ss : List (Statement k)) : Reaction (code k.signature) :=
  .function fun m => do
    let _ ← actions m none ss
    return .ok none

/-- The publisher that does the statements. -/
def publisher (ss : List (Statement k)) (m : Message) : Action k.signature Unit := do
  logLine ("publish " ++ m.label)
  let _ ← actions m none ss
  return ()

/-! ## Handlers -/

/-- What a handler does with a message after it has logged it. -/
def Handler.consume (h : Handler k) (name : String) (m : Message) : Action k.signature Receipt :=
  if h.panicsOn = some m.type.name then return .crashed
  else if h.failsOn = some m.type.name then return .handled (.error (.delivery "refused"))
  else
    match h.error, h.reply, h.runner, h.queue with
    | some e, _, _, _ => return .handled (.error e)
    | none, some reply, _, _ => return .handled (.ok (some reply))
    | none, none, some r, _ => return .handled (← Action.toRunner r m)
    | none, none, none, some q => return .handled (← Action.toQueue q m)
    | none, none, none, none => do
      match ← actions m none h.statements with
      | .ok reply => return .handled (.ok reply)
      | .error failure => return .handled (.error (.uncaughtReaction name failure))

/-- What a handler does with a message. -/
def Handler.receive (h : Handler k) (name : String) (m : Message) :
    Action k.signature Receipt := do
  if h.log then logLine (name ++ " received " ++ m.label)
  h.consume name m

/-- The handler as an actor's inbox. -/
def Handler.inbox (h : Handler k) (name : String) (m : Message) :
    Action k.signature CallResult := do
  match ← h.receive name m with
  | .handled result => return result
  | .crashed => return .ok none

/-! ## Hooks -/

/-- A wish is fulfilled, or there is none. -/
def agrees {α : Type} [BEq α] (wish : Option α) (value : α) : Bool :=
  wish.all (· == value)

/-- The rule applies to a step and a message. -/
def Rule.applies (rule : Rule k) (step : Step (code k.signature)) (m : Message) :
    Action k.signature Bool :=
  if agrees rule.step step.name && agrees rule.handlesFailure step.handlesFailure
    && agrees rule.type m.type.name then
    match rule.condition with
    | none => return true
    | some c => Guard.toAction c.guard
  else return false

/-- The treatment of the first rule that applies. -/
def treatment (step : Step (code k.signature)) (m : Message) :
    List (Rule k) → Action k.signature Treatment
  | [] => return .trigger
  | rule :: rest => do
    if ← rule.applies step m then return rule.treatment else treatment step m rest

/-- The output that a treatment makes of the one of a step that reacted. -/
def Treatment.output : Treatment → Output → Output
  | .trigger, output => output
  | .suppress output, _ => output
  | .replace output, _ => output
  | .recover m, .error _ => .ok (some m)
  | .recover _, output => output

/-- The line for an output. -/
def hookLine (step : String) : Output → String
  | .ok none => "hook " ++ step ++ " done"
  | .ok (some m) => "hook " ++ step ++ " published " ++ m.label
  | .error failure => "hook " ++ step ++ " failed " ++ failure.message

/-- The hook that a specification describes. -/
def HookSpec.hook : HookSpec k → Hook k.signature
  | .callThrough => Hook.callThrough
  | .traced service sampling => Hook.traced service sampling
  | .rules rs log => fun step m => do
    if log then logLine ("hook " ++ step.name ++ " on " ++ m.label)
    let treatment ← treatment step m rs
    match treatment with
    | .suppress output =>
      if log then logLine (hookLine step.name output)
      return .suppress output
    | treatment =>
      return .trigger fun output => do
        let output := treatment.output output
        if log then logLine (hookLine step.name output)
        return output

end UseCaseEngine.Script
