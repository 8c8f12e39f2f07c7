import UseCaseEngine.Error
import UseCaseEngine.Model.Basic

/-!
# References by name

Positions and continuations refer to steps by name. `Model.resolve` looks a name up; a
`Reference` remembers its first success, and keeps it whatever model it is resolved in later.

* **In a run** (`resolve`, `resolveAll`): every name is looked up in the model that is run; with
  several names the first unknown one is the error.
* **By itself** (`Reference.resolve`): a reference that is kept apart from a model, to one step or
  to several.

Out of scope: a specification that is built twice, so that the references in one model were
resolved in another; each model looks its names up itself.

* `Reference.resolve_of_found`: a reference that was resolved once does not change.
-/

namespace UseCaseEngine

variable {C : Code}

namespace Model

/-- The step that a name refers to. -/
def resolve (model : Model C) (name : String) : Except RunnerError (Step C) :=
  match model.stepNamed? name with
  | some step => .ok step
  | none => .error (.unknownStep name)

/-- The steps that several names refer to; the first unknown name is reported. -/
def resolveAll (model : Model C) : List String → Except RunnerError (List (Step C))
  | [] => .ok []
  | name :: rest => do
    let step ← model.resolve name
    let steps ← resolveAll model rest
    return step :: steps

end Model

/-- A reference to one or several steps, and what it was found to be. -/
structure Reference where
  names : List String
  found : Option (List StepId) := none
  deriving DecidableEq, Repr

namespace Reference

/-- Looks the names up unless that was done before, and remembers what was found. -/
def resolve (ref : Reference) (model : Model C) : Except RunnerError (List StepId) × Reference :=
  match ref.found with
  | some ids => (.ok ids, ref)
  | none =>
    match model.resolveAll ref.names with
    | .ok steps => (.ok (steps.map (·.id)), { ref with found := some (steps.map (·.id)) })
    | .error e => (.error e, ref)

theorem resolve_of_found {ref : Reference} {ids : List StepId} (h : ref.found = some ids)
    (model : Model C) : ref.resolve model = (.ok ids, ref) := by
  simp [resolve, h]

/-- What the reference is in each of several models, resolved in this order. -/
def resolveIn (ref : Reference) : List (Model C) → List (Except RunnerError (List StepId))
  | [] => []
  | model :: rest =>
    let (result, ref) := ref.resolve model
    result :: ref.resolveIn rest

end Reference

end UseCaseEngine
