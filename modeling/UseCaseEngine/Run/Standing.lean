import UseCaseEngine.Run.Cursor

/-!
# Where a step may react

The position of a step holds for a cursor that stands right before it: after its predecessor, or
where its flow can be entered. Like the cursor's own rules, these are written for any monad in
which guards are evaluated. The order in which guards are asked is part of the rules, since
evaluating a guard may be seen.

* **After a step** (`isAfter`, `isRepeating`): `after` and `repeating`; a step that repeats is not
  left.
* **Positions** (`stands`): `step_holds` and `flow_holds_within`. A step that a continuation marked
  stands there whatever its position says.
* **Flows without a position** (`defaultEntry`): `default_flow_holds`, by the model's start, the
  inclusion, or the end of the flow before.

A flow that stands in for a step can be entered where that step could react. Such flows may stand
in for one another in a circle; `budget` bounds how many of them are followed.

* `isAfter_of_latest`, `isAfter_of_ne`: only the latest step is asked whether it repeats.
* `stands_of_pending`, `stands_of_previous`: the cases in which no flow has a say.
-/

namespace UseCaseEngine

variable {C : Code} {m : Type → Type} [Monad m] (eval : C.Guard → m Bool)
  (model : Model C) (c : Cursor)

/-- The step was the latest to react, and is done repeating. -/
def isAfter (id : StepId) : m Bool :=
  if c.latest = some id then
    match model.step? id with
    | some step => do return !(← step.loops eval)
    | none => pure false
  else pure false

/-- One of the steps was the latest to react, and is done repeating. -/
def isAfterAny : List (Step C) → m Bool
  | [] => pure false
  | step :: rest => do
    if ← isAfter eval model c step.id then pure true else isAfterAny rest

/-- The step was the latest to react, and is to react again. -/
def isRepeating (step : Step C) : m Bool :=
  if c.latest = some step.id then step.loops eval else pure false

/-- A flow without a position and a guard is entered after the flow declared before it. The basic
flow has none: it starts a run, unless its use case is included by some step; then it follows that
step's inclusion. -/
def defaultEntry (flow : Flow C) : m Bool :=
  if model.isBasicFlow flow then
    pure <|
      if model.isIncluded flow.useCase then
        match c.frames with
        | frame :: _ => frame.included == flow.useCase && c.latest == some frame.includeStep
        | [] => false
      else c.latest.isNone
  else
    match (model.precedingFlow? flow).bind model.flow? with
    | some preceding =>
      match preceding.steps.getLast? with
      | some last => isAfter eval model c last
      | none => pure false
    | none => pure false

/-- The cursor stands where the step may react. -/
def stands : Nat → Step C → ExceptT RunnerError m Bool
  | budget, step =>
    if c.continueAt = some step.id then pure true
    else
      match step.previous with
      | some previous => ExceptT.lift (isAfter eval model c previous)
      | none =>
        match model.flow? step.flow with
        | none => pure false
        | some flow =>
          match flow.position with
          | some .anytime => pure true
          | some (.after names) => do
            let steps ← model.resolveAll names
            ExceptT.lift (isAfterAny eval model c steps)
          | some (.insteadOf name) => do
            let replaced ← model.resolve name
            match budget with
            | 0 => pure false
            | budget + 1 => stands budget replaced
          | none =>
            if flow.guard.isSome then pure true
            else ExceptT.lift (defaultEntry eval model c flow)

variable {eval model c}

theorem isAfter_of_latest {step : Step C} (hlatest : c.latest = some step.id)
    (hstep : model.step? step.id = some step) :
    isAfter eval model c step.id = do return !(← step.loops eval) := by
  unfold isAfter
  rw [if_pos hlatest, hstep]

theorem isAfter_of_ne {id : StepId} (hlatest : c.latest ≠ some id) :
    isAfter eval model c id = pure false :=
  if_neg hlatest

theorem isRepeating_of_latest {step : Step C} (hlatest : c.latest = some step.id) :
    isRepeating eval c step = step.loops eval :=
  if_pos hlatest

theorem isRepeating_of_ne {step : Step C} (hlatest : c.latest ≠ some step.id) :
    isRepeating eval c step = pure false :=
  if_neg hlatest

/-- The step that a continuation made the next one may react. -/
theorem stands_of_pending {step : Step C} (hpending : c.continueAt = some step.id) (budget : Nat) :
    stands eval model c budget step = pure true := by
  unfold stands
  rw [if_pos hpending]

/-- Any other step that is not the first one of its flow waits for the one before it. -/
theorem stands_of_previous {step : Step C} {previous : StepId}
    (hpending : c.continueAt ≠ some step.id) (hprevious : step.previous = some previous)
    (budget : Nat) :
    stands eval model c budget step = ExceptT.lift (isAfter eval model c previous) := by
  unfold stands
  rw [if_neg hpending, hprevious]

end UseCaseEngine
