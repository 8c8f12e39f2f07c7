/-!
# Stopwatches

A stopwatch measures durations that lie inside one another: what was started last is stopped first.
Time passes whenever the stopwatch is used, in units of its own. It stands in for the clock that a
traced reaction is measured with; no result is about how long anything takes.

* `started_stop_start`: starting and stopping leaves the durations around it running.
-/

namespace UseCaseEngine

/-- A stopwatch. -/
structure Stopwatch where
  /-- The time. -/
  now : Nat := 0
  /-- When the durations that are being measured began, the latest first. -/
  started : List Nat := []
  deriving DecidableEq, Repr

namespace Stopwatch

/-- Starts to measure a duration. -/
def start (s : Stopwatch) : Stopwatch := ⟨s.now + 1, s.now :: s.started⟩

/-- Stops measuring the duration that was started last, and tells how long it was. -/
def stop (s : Stopwatch) : Nat × Stopwatch :=
  match s.started with
  | [] => (0, ⟨s.now + 1, []⟩)
  | began :: rest => (s.now - began, ⟨s.now + 1, rest⟩)

theorem started_stop_start (s : Stopwatch) : s.start.stop.2.started = s.started := rfl

end Stopwatch

end UseCaseEngine
