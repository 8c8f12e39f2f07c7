import UseCaseEngine.Run.Standing

/-!
# Which steps can react

A step is a candidate for a message if it is in scope, bound to the acting actor or the system,
expects the message's type and can be reached from the cursor. A candidate that enters a flow in
place of another step preempts that step. A message is resolved if one candidate is left.

* **Who takes part** (`Scope.admits`, `isOpenTo`): `in_scope` and `is_acting`. Ordinary messages
  stay inside the use case that is included, failures do not.
* **Who can be reached** (`isReachable`, `reachable`): `is_reachable`, with the guards asked in its
  order: the condition for repeating, the position, the guard of the flow that is entered, the
  step's guard, and the condition for repeating again.
* **Who is preempted** (`replacedBy`, `candidates`): `preempted`, which takes the replaced steps of
  all that can be reached, in place or not.
* **Who reacts** (`resolve`): several candidates are an error that names them in model order.

All this is written for any monad in which guards are evaluated, as in `Standing`.
-/

namespace UseCaseEngine

variable {C : Code}

/-- Which steps take part in a resolution. -/
inductive Scope where
  /-- The steps for ordinary messages. -/
  | normal
  /-- The steps that handle failures. -/
  | failure
  deriving DecidableEq, Repr

/-- The step takes part. Ordinary messages stay inside the innermost included use case. -/
def Scope.admits (scope : Scope) (c : Cursor) (step : Step C) : Bool :=
  match scope with
  | .failure => step.handlesFailure
  | .normal =>
    !step.handlesFailure &&
      match c.frames with
      | [] => true
      | frame :: _ => frame.included == step.useCase

/-- The actor, or the system, may trigger the step. -/
def Step.isOpenTo (step : Step C) (actor : String) : Bool :=
  step.isBoundTo actor || step.isBoundTo Actor.system

section Resolution

variable {m : Type → Type} [Monad m] (eval : C.Guard → m Bool) (model : Model C) (c : Cursor)

/-- The guard of the flow that the step enters holds; other steps enter none. -/
def entryGuardHolds (step : Step C) : m Bool :=
  if step.isEntry then
    match model.flow? step.flow with
    | some flow => holds eval flow.guard
    | none => pure true
  else pure true

/-- The cursor stands where the step may react, and the step may enter its flow. -/
def isOffered (step : Step C) : ExceptT RunnerError m Bool := do
  if ← stands eval model c model.flows.length step then
    ExceptT.lift (entryGuardHolds eval model step)
  else pure false

/-- The step's own conditions hold: its guard, and its condition for repeating if it has one. -/
def isWilling (step : Step C) : m Bool := do
  if ← holds eval step.guard then holds eval step.repeatWhile else pure false

/-- The step can be reached: it repeats, or it is offered at the cursor; and it is willing. -/
def isReachable (step : Step C) : ExceptT RunnerError m Bool := do
  if ← ExceptT.lift (isRepeating eval c step) then ExceptT.lift (isWilling eval step)
  else if ← isOffered eval model c step then ExceptT.lift (isWilling eval step)
  else pure false

/-- The steps of a list that can take a message of the type, whether preempted or not. -/
def reachable (actor : String) (type : MessageType) (scope : Scope) :
    List (Step C) → ExceptT RunnerError m (List (Step C))
  | [] => return []
  | step :: rest => do
    if scope.admits c step && step.isOpenTo actor && step.expects type then
      if ← isReachable eval model c step then
        return step :: (← reachable actor type scope rest)
      else reachable actor type scope rest
    else reachable actor type scope rest

end Resolution

/-- The steps that the given ones stand in for. -/
def replacedBy (model : Model C) : List (Step C) → Except RunnerError (List StepId)
  | [] => .ok []
  | step :: rest =>
    match step.isEntry, (model.flow? step.flow).bind (·.position) with
    | true, some (.insteadOf name) => do
      let replaced ← model.resolve name
      return replaced.id :: (← replacedBy model rest)
    | _, _ => replacedBy model rest

section Resolution

variable {m : Type → Type} [Monad m] (eval : C.Guard → m Bool) (model : Model C) (c : Cursor)

/-- The steps that can take a message of the type, in model order. -/
def candidates (actor : String) (type : MessageType) (scope : Scope) :
    ExceptT RunnerError m (List (Step C)) := do
  let found ← reachable eval model c actor type scope model.steps
  let replaced ← replacedBy model found
  return found.filter fun step => !replaced.contains step.id

/-- The step that takes a message of the type, if there is one; several are an error. -/
def resolve (actor : String) (type : MessageType) (scope : Scope) :
    ExceptT RunnerError m (Option (Step C)) := do
  match ← candidates eval model c actor type scope with
  | [] => return none
  | [step] => return some step
  | steps => throw (RunnerError.ambiguousReaction type.name (steps.map (·.name)))

end Resolution

end UseCaseEngine
