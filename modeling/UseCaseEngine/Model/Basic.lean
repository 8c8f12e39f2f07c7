import UseCaseEngine.Message

/-!
# Models

A model describes how actors and a system interact: its use cases consist of flows, its flows of
steps. Steps, flows and use cases are kept in the order of their declaration and refer to one
another by their place in it. A model does not fix what user code is: `Code` names the types of
guards, reactions and inboxes.

* **Steps** (`Step`): who may trigger it (`is_bound_to`), what it reacts to (`expects`; a step
  without a type is the system's), its guard and its condition for repeating (`react_while`), what
  its reaction is (`Reaction`: user code, an inclusion, or a continuation), and who gets what it
  publishes. `includes?` is what it includes.
* **Flows and use cases** (`Flow`, `UseCase`): where a flow can be entered (`Position`: anytime,
  after steps, instead of a step), and under which guard. `isBasicFlow`, `precedingFlow?`,
  `isLast` and `isEntry` are the questions of the same names.
* **Models** (`Model`): look-ups by place and by name, and which use cases are included by a step.

Out of scope: looking at the user code in a model; guards and reactions are only run.
-/

namespace UseCaseEngine

/-- The kinds of user code that a model holds. -/
structure Code where
  /-- A condition on the state of the application. -/
  Guard : Type
  /-- What a step does with a message. -/
  Reaction : Type
  /-- What an actor does with a message published to it. -/
  Inbox : Type

/-- The place of a step in its model. -/
structure StepId where
  index : Nat
  deriving DecidableEq, Repr

/-- The place of a flow in its model. -/
structure FlowId where
  index : Nat
  deriving DecidableEq, Repr

/-- The place of a use case in its model. -/
structure UseCaseId where
  index : Nat
  deriving DecidableEq, Repr

variable {C : Code}

/-- Someone who triggers steps, or receives what they publish. -/
structure Actor (C : Code) where
  name : String
  inbox : Option C.Inbox := none

/-- The actor that steps for outside messages are bound to by default. -/
def Actor.user : String := "user"

/-- The actor that system steps and failure handlers are bound to by default. -/
def Actor.system : String := "system"

/-- What a step does when it reacts. -/
inductive Reaction (C : Code) where
  /-- Nothing. -/
  | idle
  | function (code : C.Reaction)
  /-- Go on inside the named use case. -/
  | includeUseCase (useCase : String)
  /-- Make the named step the next one. -/
  | continueAt (step : String)
  /-- Go on as if the named step had just reacted. -/
  | continueAfter (step : String)

/-- Where a flow can be entered. -/
inductive Position where
  | anytime
  /-- Right after one of the named steps. -/
  | after (steps : List String)
  /-- Where the named step could react, in place of it. -/
  | insteadOf (step : String)
  deriving DecidableEq, Repr

/-- A step of a model. -/
structure Step (C : Code) where
  id : StepId
  name : String
  useCase : UseCaseId
  flow : FlowId
  /-- The step before it in the same flow. -/
  previous : Option StepId
  actors : List String
  /-- The type of messages it reacts to; system steps have none. -/
  type : Option MessageType
  reaction : Reaction C
  guard : Option C.Guard
  /-- While this holds, the step reacts again and the flow does not go on. -/
  repeatWhile : Option C.Guard
  /-- The actor that receives what the step publishes. -/
  publishTo : Option String
  /-- The step reacts to failures of other steps, and to nothing else. -/
  handlesFailure : Bool

namespace Step

/-- The step starts its flow. -/
def isEntry (s : Step C) : Bool := s.previous.isNone

/-- The step has a condition for repeating. -/
def repeats (s : Step C) : Bool := s.repeatWhile.isSome

/-- The step reacts without a message from outside. -/
def isSystem (s : Step C) : Bool := s.type.isNone

/-- The actor may trigger the step. -/
def isBoundTo (s : Step C) (actor : String) : Bool := s.actors.contains actor

/-- The step accepts messages of the type. A system step accepts all. -/
def expects (s : Step C) (type : MessageType) : Bool :=
  match s.type with
  | none => true
  | some expected => type.isA expected

/-- The name of the use case that the step includes, if it includes one. -/
def includes? (s : Step C) : Option String :=
  match s.reaction with
  | .includeUseCase name => some name
  | _ => none

end Step

/-- A sequence of steps. -/
structure Flow (C : Code) where
  id : FlowId
  name : String
  useCase : UseCaseId
  steps : List StepId
  position : Option Position
  guard : Option C.Guard

/-- A group of flows; the first is its basic flow. -/
structure UseCase where
  id : UseCaseId
  name : String
  flows : List FlowId
  steps : List StepId
  deriving DecidableEq, Repr

/-- A use case model. -/
structure Model (C : Code) where
  name : String
  actors : List (Actor C)
  useCases : List UseCase
  flows : List (Flow C)
  steps : List (Step C)
  /-- The use cases that some step includes. -/
  included : List UseCaseId
  deriving Inhabited

namespace Model

variable (model : Model C)

/-- The step at a place. -/
def step? (id : StepId) : Option (Step C) := model.steps[id.index]?

/-- The flow at a place. -/
def flow? (id : FlowId) : Option (Flow C) := model.flows[id.index]?

/-- The use case at a place. -/
def useCase? (id : UseCaseId) : Option UseCase := model.useCases[id.index]?

/-- The step with a name. -/
def stepNamed? (name : String) : Option (Step C) := model.steps.find? (·.name == name)

/-- The use case with a name. -/
def useCaseNamed? (name : String) : Option UseCase := model.useCases.find? (·.name == name)

/-- The first actor with a name. -/
def actorNamed? (name : String) : Option (Actor C) := model.actors.find? (·.name == name)

/-- Some step includes the use case, so that its basic flow is entered by inclusion only. -/
def isIncluded (id : UseCaseId) : Bool := model.included.contains id

/-- The flow is the first of its use case. -/
def isBasicFlow (flow : Flow C) : Bool :=
  match model.useCase? flow.useCase with
  | some useCase => useCase.flows.head? == some flow.id
  | none => false

/-- The flow declared right before the given one in the same use case. -/
def precedingFlow? (flow : Flow C) : Option FlowId :=
  match model.useCase? flow.useCase with
  | some useCase =>
    match useCase.flows.idxOf? flow.id with
    | some (n + 1) => useCase.flows[n]?
    | _ => none
  | none => none

/-- The step ends its flow. -/
def isLast (step : Step C) : Bool :=
  match model.flow? step.flow with
  | some flow => flow.steps.getLast? == some step.id
  | none => false

end Model

end UseCaseEngine
