import UseCaseEngine.Proofs.Journal
import UseCaseEngine.Tracing

/-!
# What tracing adds up to

A reaction that is traced leaves two samples behind. An `Entry` is such a reaction; the samples of
a number of entries are told apart by their type, and count the reactions of each step.

A `Tally` relates three accounts of a runner's reactions: the journal, the samples, and the log of
recorded steps, if that was kept from the start.

Out of scope: the durations that are sampled. They are whatever the stopwatch shows.

* `countersOf_entries`, `counted_entries`: the counters name the steps, and count them.
* `Tally.note`, `Tally.startRecording`, `Tally.stopRecording`: what else happens does no harm.
* `Tally.reacted`: a traced reaction is one more entry.
-/

namespace UseCaseEngine

variable {S : Signature}

/-! ## Entries -/

/-- A reaction that is traced: the step, what came of it, and how long it took. -/
structure Entry where
  step : String
  output : Output
  duration : Float

/-- How long a reaction of a step took. -/
def durationSample (service step : String) (duration : Float) : Sample :=
  { name := durationName, value := duration, type := .histogram
    labels := [("service", service), ("step", step)] }

/-- What is recorded of a reaction. -/
def Entry.samples (service : String) (e : Entry) : List Sample :=
  [durationSample service e.step e.duration, reactionSample service e.step e.output]

section Samples

variable (service : String) (entries : List Entry)

/-- The counters among the samples name the steps. -/
theorem countersOf_entries :
    ((entries.flatMap (Entry.samples service)).filter (·.type == .counter)).map
      (·.label? "step") = entries.map fun e => some e.step := by
  induction entries with
  | nil => rfl
  | cons e entries ih =>
    rw [List.flatMap_cons, List.filter_append, List.map_append, ih]
    rfl

/-- An entry counts for its own step. -/
theorem counts_reactionSample (e : Entry) (step : String) :
    Metrics.counts "casemodel_reactions_total" "step" step
      (reactionSample service e.step e.output) = (e.step == step) := rfl

/-- The samples count each step as often as it is entered, with a value of one each time. -/
theorem counted_entries (step : String) :
    ((entries.flatMap (Entry.samples service)).filter
      (Metrics.counts "casemodel_reactions_total" "step" step)).map Sample.value =
      List.replicate ((entries.map Entry.step).count step) 1 := by
  induction entries with
  | nil => rfl
  | cons e entries ih =>
    have hduration : Metrics.counts "casemodel_reactions_total" "step" step
        (durationSample service e.step e.duration) = false := rfl
    have hreaction := counts_reactionSample service e step
    rw [List.flatMap_cons, List.filter_append, List.map_append, ih, List.map_cons, Entry.samples,
      List.filter_cons, hduration, List.filter_cons, hreaction, List.count_cons]
    by_cases hstep : e.step = step
    · simp [hstep, reactionSample, List.replicate_succ]
    · simp [hstep]

end Samples

/-! ## Three accounts of a runner's reactions -/

section Tally

variable (r : RunnerId S)

/-- What came of a step of the runner. -/
def Event.output? : Event S → Option Output
  | .triggered r' _ _ output => if r' = r then some output else none
  | _ => none

/-- What came of the runner's steps, in order. -/
def outputs : List (Event S) → List Output := readOff (Event.output? r)

/-- The log was empty at the start, or was cleared before any step of the runner had reacted, and
has been kept since. -/
def onRecord (start : Recording) : List (Event S) → Bool
  | [] => start.enabled && start.steps.isEmpty
  | e :: events =>
    match e.recording? r with
    | some cleared => cleared && (outputs r events).isEmpty
    | none => onRecord start events

variable {r}

/-- The entries are the runner's reactions, as the events, the samples and the log of recorded steps
tell them. -/
structure Tally (service : String) (r : RunnerId S) (start : Recording) (events : List (Event S))
    (log : Recording) (metrics : Metrics) (entries : List Entry) : Prop where
  samples : metrics.samples = entries.flatMap (Entry.samples service)
  outputs : outputs r events = entries.map Entry.output
  log : onRecord r start events = true →
    log.enabled = true ∧ log.steps = entries.map Entry.step

variable {service : String} {start : Recording} {events : List (Event S)} {log : Recording}
  {metrics : Metrics} {entries : List Entry}

namespace Tally

variable (h : Tally service r start events log metrics entries)
include h

/-- What is no reaction, and has nothing to do with the log, is not counted. -/
theorem note {e : Event S} (houtput : e.output? r = none) (hrecording : e.recording? r = none) :
    Tally service r start (e :: events) log metrics entries where
  samples := h.samples
  outputs := by
    refine Eq.trans ?_ h.outputs
    simp [UseCaseEngine.outputs, readOff_cons, houtput]
  log hon := by
    unfold onRecord at hon
    rw [hrecording] at hon
    exact h.log hon

theorem startRecording :
    Tally service r start (.recording r true :: events) log.start metrics entries where
  samples := h.samples
  outputs := by
    refine Eq.trans ?_ h.outputs
    simp [UseCaseEngine.outputs, readOff_cons, Event.output?]
  log hon := by
    simp only [onRecord, Event.recording?, if_pos, Bool.true_and, List.isEmpty_iff] at hon
    rw [h.outputs, List.map_eq_nil_iff] at hon
    rw [hon]
    exact ⟨rfl, rfl⟩

theorem stopRecording :
    Tally service r start (.recording r false :: events) log.stop metrics entries where
  samples := h.samples
  outputs := by
    refine Eq.trans ?_ h.outputs
    simp [UseCaseEngine.outputs, readOff_cons, Event.output?]
  log hon := by
    simp [onRecord, Event.recording?] at hon

/-- **One more reaction** that is traced is one more entry. -/
theorem reacted (step : String) (id : StepId) (m : Message) (output : Output) (state : S.State)
    (duration : Float) :
    Tally service r start (.reacted r id m output state :: .triggered r id m output :: events)
      (log.record step m.type)
      ((metrics.record (durationSample service step duration)).record
        (reactionSample service step output))
      (entries ++ [⟨step, output, duration⟩]) where
  samples := by
    rw [Metrics.samples_record, Metrics.samples_record, h.samples, List.append_assoc,
      List.flatMap_append]
    rfl
  outputs := by
    have hbefore : readOff (Event.output? r) events = entries.map Entry.output := h.outputs
    simp [UseCaseEngine.outputs, readOff_cons, Event.output?, hbefore]
  log hon := by
    obtain ⟨henabled, hsteps⟩ := h.log hon
    constructor
    · unfold Recording.record
      rw [if_pos henabled]
      exact henabled
    · rw [Recording.steps_record, if_pos henabled, hsteps, List.map_append]
      rfl

theorem countersOf (hon : onRecord r start events = true) :
    (metrics.samples.filter (·.type == .counter)).map (·.label? "step") = log.steps.map some := by
  rw [h.samples, (h.log hon).2, countersOf_entries, List.map_map]
  rfl

/-- What is on record was counted, step by step. -/
theorem counted (hon : onRecord r start events = true) (step : String) :
    (metrics.samples.filter (Metrics.counts "casemodel_reactions_total" "step" step)).map
      Sample.value = List.replicate (log.steps.count step) 1 := by
  rw [h.samples, (h.log hon).2]
  exact counted_entries service entries step

theorem total (hon : onRecord r start events = true) (step : String) :
    metrics.total "casemodel_reactions_total" "step" step =
      (List.replicate (log.steps.count step) 1).foldl (· + ·) 0 := by
  rw [← h.counted hon step, List.foldl_map]
  rfl

end Tally

end Tally

end UseCaseEngine
