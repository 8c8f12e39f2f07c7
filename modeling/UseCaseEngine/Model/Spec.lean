import UseCaseEngine.Model.Basic

/-!
# Specifications

What a model is built from: plain data in declaration order, without places and without checks.

* **Steps** (`StepSpec`): `system`, `on` and `onFailure` begin one (`on_exception`); `asActor` binds
  it to an actor (`as_actor`), `reacting` gives it a reaction, an inclusion or a continuation,
  `onlyIf` a guard (`condition`), `reactWhile` a condition for repeating and `publishingTo` an actor
  for what it publishes. `place` makes a step of it.
* **Flows, use cases, models** (`FlowSpec`, `UseCaseSpec`, `ModelSpec`): a name, a position and a
  guard, and lists of the next smaller things. A flow without a name is the basic one.

A step's first actor is `defaultActor`, and `asActor` replaces the list as long as it holds nothing
else, also where that name was given on purpose.
-/

namespace UseCaseEngine

variable {C : Code}

/-- A step as it is declared. -/
structure StepSpec (C : Code) where
  name : String
  actors : List String
  type : Option MessageType
  reaction : Reaction C := .idle
  guard : Option C.Guard := none
  repeatWhile : Option C.Guard := none
  publishTo : Option String := none
  handlesFailure : Bool

namespace StepSpec

/-- A step that reacts without a message from outside, bound to the system. -/
def system (name : String) : StepSpec C :=
  { name, actors := [Actor.system], type := none, handlesFailure := false }

/-- A step that reacts to messages of a type, bound to the user. -/
def on (name : String) (type : MessageType) : StepSpec C :=
  { name, actors := [Actor.user], type := some type, handlesFailure := false }

/-- A step that handles failures of a type, bound to the system. -/
def onFailure (name : String) (type : MessageType) : StepSpec C :=
  { name, actors := [Actor.system], type := some type, handlesFailure := true }

/-- The actor that a step of this kind is bound to when none is given. -/
def defaultActor (s : StepSpec C) : String :=
  if s.handlesFailure || s.type.isNone then Actor.system else Actor.user

/-- Binds the step to an actor. A list that holds the default actor alone gives way to it. -/
def asActor (s : StepSpec C) (actor : String) : StepSpec C :=
  { s with
    actors := if s.actors = [s.defaultActor] then [actor] else s.actors ++ [actor] }

/-- Gives the step its reaction. -/
def reacting (s : StepSpec C) (reaction : Reaction C) : StepSpec C := { s with reaction }

/-- Guards the step. -/
def onlyIf (s : StepSpec C) (guard : C.Guard) : StepSpec C := { s with guard := some guard }

/-- Lets the step repeat while a condition holds. -/
def reactWhile (s : StepSpec C) (guard : C.Guard) : StepSpec C :=
  { s with repeatWhile := some guard }

/-- Lets an actor receive what the step publishes. -/
def publishingTo (s : StepSpec C) (actor : String) : StepSpec C :=
  { s with publishTo := some actor }

/-- The step at its place in a model. -/
def place (s : StepSpec C) (id : StepId) (useCase : UseCaseId) (flow : FlowId)
    (previous : Option StepId) : Step C :=
  { id, useCase, flow, previous
    name := s.name, actors := s.actors, type := s.type, reaction := s.reaction
    guard := s.guard, repeatWhile := s.repeatWhile, publishTo := s.publishTo
    handlesFailure := s.handlesFailure }

end StepSpec

/-- A flow as it is declared. -/
structure FlowSpec (C : Code) where
  name : String := "Basic flow"
  position : Option Position := none
  guard : Option C.Guard := none
  steps : List (StepSpec C) := []

/-- A use case as it is declared. -/
structure UseCaseSpec (C : Code) where
  name : String
  flows : List (FlowSpec C) := []

/-- A model as it is declared. -/
structure ModelSpec (C : Code) where
  name : String
  actors : List (Actor C) := []
  useCases : List (UseCaseSpec C) := []

end UseCaseEngine
