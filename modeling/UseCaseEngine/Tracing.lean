import UseCaseEngine.Run.Request

/-!
# Tracing reactions

A hook that lets every step react, leaves its output alone, and records two samples for each
reaction: how long it took, and that it happened with which outcome.

* **The hook** (`Hook.traced`): `around` of a traced reaction, with or without a collector
  (`with_metrics`).
* **The samples** (`reactionSample`, `durationName`): the labels are the service, the step and the
  outcome (`outcomeText`).

Out of scope: the lines that tracing logs, and real time (`Stopwatch`).
-/

namespace UseCaseEngine

variable {S : Signature}

/-- What a reaction came to, in a word. -/
def outcomeText : Output → String
  | .ok (some _) => "published"
  | .ok none => "completed"
  | .error _ => "failed"

/-- The name of the samples that say how long a reaction took, in milliseconds. -/
def durationName : String := "casemodel_reaction_duration_ms"

/-- A reaction of a step with an outcome. -/
def reactionSample (service step : String) (output : Output) : Sample :=
  { name := "casemodel_reactions_total", value := 1, type := .counter
    labels := [("service", service), ("step", step), ("outcome", outcomeText output)] }

/-- Traces the reactions of a service; records samples only if told so. -/
def Hook.traced (service : String) (sampling : Bool) : Hook S := fun step _ => do
  if sampling then Action.request .startTiming
  return .trigger fun output => do
    if sampling then
      Action.request (.sampleDuration durationName [("service", service), ("step", step.name)])
      Action.request (.sample (reactionSample service step.name output))
    return output

end UseCaseEngine
