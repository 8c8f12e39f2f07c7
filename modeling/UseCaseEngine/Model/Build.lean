import UseCaseEngine.Error
import UseCaseEngine.Model.Spec

/-!
# Building models

`ModelSpec.build` checks a specification and gives every step, flow and use case its place. The
checks go through the declarations in order and stop at the first one that fails: first the
actors, then each use case with its name, its flows and their steps. References to steps and use
cases are not checked here; they are looked up when a run needs them.

* **Checking** (`check`): names that occur twice, flows without steps, steps bound to actors that do
  not exist or that publish to one.
* **Placing** (`assemble`): `placeSteps`, `placeFlows` and `placeUseCases` number what was declared,
  link each step to the one before it in its flow, and add the actors that every model has; then
  the use cases that some step includes are marked.

* `build_eq_ok_iff`: building succeeds exactly when the checks do.
-/

namespace UseCaseEngine

variable {C : Code}

namespace ModelSpec

/-! ## Checks -/

/-- No two actors share a name. Returns the names. -/
def checkActors : List String → List (Actor C) → Except ModelError (List String)
  | seen, [] => .ok seen
  | seen, a :: rest =>
    if a.name ∈ seen then .error (.duplicateActor a.name)
    else checkActors (a.name :: seen) rest

/-- The step's name is new, and the actors it names are known. -/
def checkStep (known seen : List String) (s : StepSpec C) : Except ModelError Unit :=
  if s.name ∈ seen then .error (.duplicateStep s.name)
  else
    match (s.actors ++ s.publishTo.toList).find? (· ∉ known) with
    | some actor => .error (.unknownActor s.name actor)
    | none => .ok ()

/-- Checks steps in order, given the names of the steps before. Returns the names so far. -/
def checkSteps (known : List String) :
    List String → List (StepSpec C) → Except ModelError (List String)
  | seen, [] => .ok seen
  | seen, s :: rest => do
    checkStep known seen s
    checkSteps known (s.name :: seen) rest

/-- Checks the flows of a use case in order: each has a new name, a step, and good steps. -/
def checkFlows (known : List String) (useCase : String) :
    List String → List String → List (FlowSpec C) → Except ModelError (List String)
  | _, seen, [] => .ok seen
  | flows, seen, f :: rest =>
    if f.name ∈ flows then .error (.duplicateFlow useCase f.name)
    else if f.steps.isEmpty then .error (.emptyFlow useCase f.name)
    else do
      let seen ← checkSteps known seen f.steps
      checkFlows known useCase (f.name :: flows) seen rest

/-- Checks use cases in order: each has a new name and good flows. -/
def checkUseCases (known : List String) :
    List String → List String → List (UseCaseSpec C) → Except ModelError (List String)
  | _, seen, [] => .ok seen
  | useCases, seen, u :: rest =>
    if u.name ∈ useCases then .error (.duplicateUseCase u.name)
    else do
      let seen ← checkFlows known u.name [] seen u.flows
      checkUseCases known (u.name :: useCases) seen rest

/-- All checks. -/
def check (spec : ModelSpec C) : Except ModelError Unit := do
  let declared ← checkActors [] spec.actors
  let _ ← checkUseCases (declared ++ [Actor.user, Actor.system]) [] [] spec.useCases
  return ()

/-! ## Places -/

/-- The declared actors, and those of the user and the system that are not among them. -/
def allActors (spec : ModelSpec C) : List (Actor C) :=
  spec.actors ++ ([Actor.user, Actor.system].filter
    (fun name => spec.actors.all (·.name != name))).map fun name => { name := name }

/-- The steps of a flow, from a given place on. -/
def placeSteps (useCase : UseCaseId) (flow : FlowId) :
    Option StepId → Nat → List (StepSpec C) → List (Step C)
  | _, _, [] => []
  | previous, next, s :: rest =>
    s.place ⟨next⟩ useCase flow previous :: placeSteps useCase flow (some ⟨next⟩) (next + 1) rest

/-- The flows of a use case, each with its steps, from given places on. -/
def placeFlows (useCase : UseCaseId) :
    Nat → Nat → List (FlowSpec C) → List (Flow C × List (Step C))
  | _, _, [] => []
  | nextFlow, nextStep, f :: rest =>
    let steps := placeSteps useCase ⟨nextFlow⟩ none nextStep f.steps
    ({ id := ⟨nextFlow⟩, name := f.name, useCase, steps := steps.map (·.id)
       position := f.position, guard := f.guard }, steps)
      :: placeFlows useCase (nextFlow + 1) (nextStep + f.steps.length) rest

/-- The use cases, each with its flows and steps, from given places on. -/
def placeUseCases : Nat → Nat → Nat → List (UseCaseSpec C) →
    List (UseCase × List (Flow C) × List (Step C))
  | _, _, _, [] => []
  | next, nextFlow, nextStep, u :: rest =>
    let placed := placeFlows ⟨next⟩ nextFlow nextStep u.flows
    let flows := placed.map (·.1)
    let steps := placed.flatMap (·.2)
    ({ id := ⟨next⟩, name := u.name, flows := flows.map (·.id), steps := steps.map (·.id) },
      flows, steps)
      :: placeUseCases (next + 1) (nextFlow + flows.length) (nextStep + steps.length) rest

/-- The model of a specification that passes the checks. -/
def assemble (spec : ModelSpec C) : Model C :=
  let placed := placeUseCases 0 0 0 spec.useCases
  let useCases := placed.map (·.1)
  let steps := placed.flatMap (·.2.2)
  { name := spec.name
    actors := spec.allActors
    useCases
    flows := placed.flatMap (·.2.1)
    steps
    included := (useCases.filter fun u => steps.any (·.includes? == some u.name)).map (·.id) }

/-- The model that a specification describes. -/
def build (spec : ModelSpec C) : Except ModelError (Model C) :=
  match spec.check with
  | .ok _ => .ok spec.assemble
  | .error e => .error e

theorem build_eq_ok_iff (spec : ModelSpec C) (model : Model C) :
    spec.build = .ok model ↔ spec.check = .ok () ∧ spec.assemble = model := by
  unfold build
  split <;> simp_all

end ModelSpec

end UseCaseEngine
