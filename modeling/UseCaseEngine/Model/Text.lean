import UseCaseEngine.Model.Spec

/-!
# Texts for models

The texts that show the structure of actors, steps, flows and specifications: the name of the
kind, and its fields between braces. Nothing goes by these texts.
-/

namespace UseCaseEngine

variable {C : Code}

/-- The name of a kind, and its fields between braces. -/
def structureText (kind : String) (fields : List (String × String)) : String :=
  kind ++ " \x7b " ++ ", ".intercalate (fields.map fun f => f.1 ++ ": " ++ f.2) ++ " \x7d"

/-- The place of a step as a text. -/
def StepId.text (id : StepId) : String := "StepId(" ++ toString id.index ++ ")"

/-- The place of a flow as a text. -/
def FlowId.text (id : FlowId) : String := "FlowId(" ++ toString id.index ++ ")"

/-- The place of a use case as a text. -/
def UseCaseId.text (id : UseCaseId) : String := "UseCaseId(" ++ toString id.index ++ ")"

/-- Quoted names between brackets. -/
def namesText (names : List String) : String := Text.bracketed (names.map Text.quoted)

/-- The text that shows an actor. -/
def Actor.structureText (a : Actor C) : String :=
  UseCaseEngine.structureText "Actor"
    [("name", Text.quoted a.name), ("has_handler", toString a.inbox.isSome)]

/-- The text that shows a reaction; code is not shown. -/
def Reaction.structureText : Reaction C → String
  | .idle => "Function"
  | .function _ => "Function"
  | .includeUseCase name => "IncludeUseCase(" ++ name ++ ")"
  | .continueAt step => "ContinueAt(" ++ step ++ ")"
  | .continueAfter step => "ContinueAfter(" ++ step ++ ")"

/-- The text that shows a position; what its names refer to is not looked up. -/
def Position.structureText : Position → String
  | .anytime => "Anytime"
  | .after names =>
    "After(" ++ UseCaseEngine.structureText "NamedSteps"
      [("names", namesText names), ("resolved", "OnceCell(Uninit)")] ++ ")"
  | .insteadOf name =>
    "InsteadOf(" ++ UseCaseEngine.structureText "NamedStep"
      [("name", Text.quoted name), ("resolved", "OnceCell(Uninit)")] ++ ")"

/-- The name of an expected type, if there is one. -/
def typeText (type : Option MessageType) : String :=
  Text.optional (type.map fun t => Text.quoted t.name)

/-- The text that shows a step. -/
def Step.structureText (s : Step C) : String :=
  UseCaseEngine.structureText "Step"
    [("name", Text.quoted s.name), ("actors", namesText s.actors),
     ("message_type", typeText s.type), ("reaction", s.reaction.structureText),
     ("repeats", toString s.repeats), ("handles_exception", toString s.handlesFailure)]

/-- The text that shows a flow. -/
def Flow.structureText (f : Flow C) : String :=
  UseCaseEngine.structureText "Flow"
    [("name", Text.quoted f.name), ("steps", Text.bracketed (f.steps.map StepId.text)),
     ("position", Text.optional (f.position.map Position.structureText)),
     ("has_condition", toString f.guard.isSome)]

/-- The text that shows a declared step. -/
def StepSpec.structureText (s : StepSpec C) : String :=
  UseCaseEngine.structureText "StepSpec"
    [("name", Text.quoted s.name), ("actors", namesText s.actors),
     ("message_type", typeText s.type), ("reaction", s.reaction.structureText)]

/-- The text that shows a declared flow. -/
def FlowSpec.structureText (f : FlowSpec C) : String :=
  UseCaseEngine.structureText "FlowSpec"
    [("name", Text.quoted f.name),
     ("position", Text.optional (f.position.map Position.structureText)),
     ("steps", Text.bracketed (f.steps.map StepSpec.structureText))]

/-- The text that shows a declared use case. -/
def UseCaseSpec.structureText (u : UseCaseSpec C) : String :=
  UseCaseEngine.structureText "UseCaseSpec"
    [("name", Text.quoted u.name), ("flows", Text.bracketed (u.flows.map FlowSpec.structureText))]

end UseCaseEngine
