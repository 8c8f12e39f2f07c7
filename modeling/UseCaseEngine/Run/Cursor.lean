import UseCaseEngine.Model.Reference

/-!
# Cursors

A cursor says where a run stands in its model: the latest step, a step that a continuation made
the next one, and the use cases that were included and not yet left, innermost first.

* **Inclusion** (`enter`): `include` puts a frame on top.
* **Leaving** (`settle`): frames are handed back as long as the step that reacted last ends a flow
  of the included use case and does not repeat.
* **Continuations** (`continuedAt`, `continuedAfter`): `continue_at` and `continue_after`, which
  leave the frames of use cases that the target is not in (`unwind`). Neither of them settles.
* **A step's effect** (`Cursor.apply`, `Cursor.advance`): `apply_reaction` after the step has become
  the latest one (`reached`). A name that the model lacks is an error, and then the cursor stays.
* **Turns** (`Turn`): what is noted of a step that took its turn, with the answers that its
  conditions for repeating gave (`heard`).

Whether a step repeats is decided by user code, so everything that asks for it is written for any
monad `m` and takes the evaluation of a guard as an argument.

* `unwind_suffix`, `included_of_head?_unwind`: unwinding leaves the outer frames as they are, and
  the innermost one that is left includes the use case.
* `continuedAt_of_previous`, `continuedAt_of_entry`: in front of a target, a run stands on the step
  before it; where there is none it stays, and the target is marked.
* `settle_nil`, `settle_of_not_isLast`: outside of included use cases, and before the end of a
  flow, a run stays on the step that reacted.
-/

namespace UseCaseEngine

variable {C : Code}

/-- An included use case and the step that included it. -/
structure Frame where
  includeStep : StepId
  included : UseCaseId
  deriving DecidableEq, Repr

/-- Where a run stands in its model. -/
structure Cursor where
  /-- The latest step that reacted. -/
  latest : Option StepId := none
  /-- The first step of a flow that a continuation made the next step. -/
  continueAt : Option StepId := none
  /-- The included use cases, innermost first. -/
  frames : List Frame := []
  deriving DecidableEq, Repr

section Loop

variable {m : Type → Type} [Monad m] (eval : C.Guard → m Bool)

/-- The guard holds, or there is none. -/
def holds : Option C.Guard → m Bool
  | none => pure true
  | some g => eval g

/-- The step's condition for repeating holds. A step without one does not repeat. -/
def Step.loops (s : Step C) : m Bool :=
  match s.repeatWhile with
  | none => pure false
  | some g => eval g

/-- Where a run stands after a step reacted that is not a continuation: while the step ends a flow
of the innermost included use case and does not repeat, that use case is left, and the step that
included it takes its place. Gives the latest step and the frames that are left. -/
def settle (model : Model C) (finished : Step C) : List Frame → m (StepId × List Frame)
  | [] => pure (finished.id, [])
  | frame :: rest =>
    if finished.useCase = frame.included ∧ model.isLast finished then do
      if ← finished.loops eval then
        pure (finished.id, frame :: rest)
      else
        match model.step? frame.includeStep with
        | some step => settle model step rest
        | none => pure (frame.includeStep, rest)
    else pure (finished.id, frame :: rest)

@[simp] theorem settle_nil (model : Model C) (finished : Step C) :
    settle eval model finished [] = pure (finished.id, []) := rfl

theorem settle_of_not_isLast {model : Model C} {finished : Step C}
    (h : model.isLast finished = false) (frames : List Frame) :
    settle eval model finished frames = pure (finished.id, frames) := by
  cases frames <;> simp [settle, h]

end Loop

namespace Cursor

/-- The frames down to the innermost one that includes the use case, or none. -/
def unwind (useCase : UseCaseId) (frames : List Frame) : List Frame :=
  frames.dropWhile (·.included != useCase)

theorem unwind_suffix (useCase : UseCaseId) (frames : List Frame) :
    unwind useCase frames <:+ frames :=
  List.dropWhile_suffix _

/-- What is left is empty, or its innermost frame includes the use case. -/
theorem included_of_head?_unwind {useCase : UseCaseId} {frames : List Frame} {frame : Frame}
    (h : (unwind useCase frames).head? = some frame) : frame.included = useCase := by
  have := List.head?_dropWhile_not (fun f : Frame => f.included != useCase) frames
  unfold unwind at h
  rw [h] at this
  simpa using this

/-- The cursor right after a step was triggered, before its effect. -/
def reached (c : Cursor) (step : Step C) : Cursor :=
  { latest := some step.id, continueAt := none, frames := c.frames }

/-- The cursor inside a use case that a step includes. -/
def enter (c : Cursor) (step : Step C) (useCase : UseCaseId) : Cursor :=
  { c with frames := ⟨step.id, useCase⟩ :: c.frames }

/-- The cursor in front of a target. Before the first step of a flow there is none to stand on, so
that the run stays on the continuing step and the target is marked. -/
def continuedAt (c : Cursor) (source target : Step C) : Cursor :=
  match target.previous with
  | some previous =>
    { c with latest := some previous, frames := unwind target.useCase c.frames }
  | none =>
    { latest := some source.id, continueAt := some target.id
      frames := unwind target.useCase c.frames }

theorem continuedAt_of_previous {target : Step C} {previous : StepId}
    (h : target.previous = some previous) (c : Cursor) (source : Step C) :
    c.continuedAt source target =
      { c with latest := some previous, frames := unwind target.useCase c.frames } := by
  unfold continuedAt
  rw [h]

theorem continuedAt_of_entry {target : Step C} (h : target.previous = none) (c : Cursor)
    (source : Step C) : c.continuedAt source target =
      { latest := some source.id, continueAt := some target.id
        frames := unwind target.useCase c.frames } := by
  unfold continuedAt
  rw [h]

/-- The cursor on a target, as if it had just reacted. -/
def continuedAfter (c : Cursor) (target : Step C) : Cursor :=
  { c with latest := some target.id, frames := unwind target.useCase c.frames }

end Cursor

section Effect

variable {m : Type → Type} [Monad m] (eval : C.Guard → m Bool)

/-- Where a run that has reached a step stands once the step had its effect. A reference that leads
nowhere is an error, and leaves the run on the step. -/
def Cursor.apply (model : Model C) (here : Cursor) (step : Step C) :
    m (Cursor × Except RunnerError Unit) :=
  match step.reaction with
  | .idle | .function _ => do
    let (latest, frames) ← settle eval model step here.frames
    pure ({ here with latest := some latest, frames }, .ok ())
  | .includeUseCase name =>
    match model.useCaseNamed? name with
    | some useCase => pure (here.enter step useCase.id, .ok ())
    | none => pure (here, .error (.unknownUseCase name))
  | .continueAt name =>
    match model.resolve name with
    | .ok target => pure (here.continuedAt step target, .ok ())
    | .error e => pure (here, .error e)
  | .continueAfter name =>
    match model.resolve name with
    | .ok target => pure (here.continuedAfter target, .ok ())
    | .error e => pure (here, .error e)

/-- Where a run stands after a step reacted without failing. -/
def Cursor.advance (model : Model C) (c : Cursor) (step : Step C) :
    m (Cursor × Except RunnerError Unit) :=
  (c.reached step).apply eval model step

/-- Evaluates guards and writes down their answers. -/
def heard (g : C.Guard) : StateT (List Bool) m Bool := fun answers => do
  let answer ← eval g
  pure (answer, answers ++ [answer])

end Effect

/-! ## Turns -/

/-- A step that reacted: what it reacted to, what came of it, and what the conditions for repeating
answered that were asked before included use cases were left. -/
structure Turn where
  step : StepId
  message : Message
  output : Output
  answers : List Bool := []

end UseCaseEngine
