import UseCaseEngine.Example.Porter
import UseCaseEngine.Proofs.Inspection
import UseCaseEngine.Proofs.Lockstep
import UseCaseEngine.Proofs.Reach

/-!
# Runs that begin afresh

Once a model is run, nothing that happens depends on what its runner did before: which model it ran,
where it stood, whether it was stopped or had failed. Two worlds that differ in nothing else come
together as the run begins (`run`), and stay so. All that is left of the past is the log, which goes
on from what was in it unless it is cleared (`record_from_start`). User code can read the log
(`recorded_step_names`), and code that goes by it tells the worlds apart.

Out of scope: runners that differ in what they were told (settings, hook, publisher, acting actor,
and whether they record now).

* `Application.Asks`: what the user code of an application may ask for.
* `Recording.Alike`: two logs to which the same was added.
* `Afresh`: the worlds are the same but for the log of a runner, and the same has happened since.
* `callWithin_afresh`, `apply_afresh`: whatever is done, they stay so.
* **`afresh_of_run`**: after a run is begun, they are so for good, and all answers are the same.
* `remembered_by_porter`: not so if user code goes by the log.
-/

namespace UseCaseEngine

variable {S : Signature}

/-! ## What user code asks for -/

/-- User code other than a guard makes no other requests than those. It may make any inquiry. -/
def Action.Asks (P : Request S → Prop) {α : Type} (p : Action S α) : Prop :=
  Program.Asks (I := codeInterface S) (Sum.elim P fun _ => True) p

/-- The user code of an application makes no other requests than those. -/
structure Application.Asks (app : Application S) (P : Request S → Prop) : Prop where
  guard : ∀ name g, (app.model name).HasGuard g → Program.Asks (I := guardInterface S) P g
  reaction : ∀ name, ∀ step ∈ (app.model name).steps, ∀ {program},
    step.reaction = .function program → ∀ m, Action.Asks P (program m)
  inbox : ∀ name actor {inbox}, ((app.model name).actorNamed? actor).bind (·.inbox) = some inbox →
    ∀ m, Action.Asks P (inbox m)
  hook : ∀ name step m, Action.Asks P (app.hook name step m)
  after : ∀ name step m, (app.hook name step m).Yields fun advice =>
    ∀ after, advice = .trigger after → ∀ output, Action.Asks P (after output)
  publisher : ∀ name m, Action.Asks P (app.publisher name m)
  consumer : ∀ q m, Action.Asks P (app.consumer q m)

theorem Action.asks_of_forall {P : Request S → Prop} (h : ∀ q, P q) {α : Type} (p : Action S α) :
    Action.Asks P p :=
  Program.asks_of_forall (fun | .inl q => h q | .inr _ => trivial) p

/-- Any user code makes requests of any kind. -/
theorem Application.asks_of_forall (app : Application S) {P : Request S → Prop} (h : ∀ q, P q) :
    app.Asks P where
  guard _ g _ := Program.asks_of_forall h g
  reaction _ _ _ _ _ _ := Action.asks_of_forall h _
  inbox _ _ _ _ _ := Action.asks_of_forall h _
  hook _ _ _ := Action.asks_of_forall h _
  after _ _ _ := Program.yields_of_forall (fun _ _ _ _ => Action.asks_of_forall h _) _
  publisher _ _ := Action.asks_of_forall h _
  consumer _ _ := Action.asks_of_forall h _

section UserCode

variable {app : Application S} {calls : Calls S} {P : Request S → Prop} (happ : app.Asks P)
  {Φ : {α : Type} → Effect S α → Prop} (hΦ : Sequential Φ)
  (hperform : ∀ q, P q → Φ (perform app calls q))
include happ hΦ hperform

theorem Application.Asks.evalGuard {name : S.ModelName} {g : Guard S}
    (hg : (app.model name).HasGuard g) : Φ (evalGuard app calls g) :=
  hΦ.toChained.asks (I := guardInterface S) (happ.guard name g hg) hperform

/-- User code has a property of effects if what it may ask for has it. -/
theorem Application.Asks.exec {α : Type} {p : Action S α} (hp : Action.Asks P p) :
    Φ (exec app calls p) := by
  refine hΦ.toChained.asks (I := codeInterface S) hp fun q hq => ?_
  cases q with
  | inl q => exact hperform q hq
  | inr q => exact hΦ.inquiry app calls (fun _ _ hg => happ.evalGuard hΦ hperform hg) q

/-- So has the user code of every session that is opened. -/
theorem Application.Asks.userCode (r : RunnerId S) (name : S.ModelName) (w : World S) :
    (openSession app r name w).1.UserCode app calls Φ where
  guard g hg := happ.evalGuard hΦ hperform (show (app.model name).HasGuard g from hg)
  hook step m := by
    change Φ (UseCaseEngine.exec app calls ((Option.map app.hook _).getD Hook.callThrough step m))
    generalize (World.runner _ r).hook = hook
    cases hook with
    | none => exact hΦ.pure _
    | some hook => exact happ.exec hΦ hperform (happ.hook hook step m)
  reaction step hstep m := by
    unfold Session.execReaction
    split
    · exact happ.exec hΦ hperform (happ.reaction name step hstep ‹_› m)
    · exact hΦ.pure _
  after step m v after hafter output := by
    change (UseCaseEngine.exec app calls ((Option.map app.hook _).getD Hook.callThrough step m)
      v).1 = _ at hafter
    generalize (World.runner _ r).hook = hook at hafter
    cases hook with
    | none =>
      cases hafter
      exact hΦ.pure _
    | some hook =>
      exact happ.exec hΦ hperform ((happ.after hook step m).run _ v after hafter output)
  inbox actor _ hinbox m := happ.exec hΦ hperform (happ.inbox name actor hinbox m)
  publisher publisher m := happ.exec hΦ hperform (happ.publisher publisher m)

end UserCode

/-! ## Logs -/

/-- The logs are the same, or the same was added to two others. -/
inductive Recording.Alike (past past' : Recording) : Recording → Recording → Prop where
  | same (log : Recording) : Alike past past' log log
  | since (enabled : Bool) (steps : List String) (types : List MessageType) :
      Alike past past' ⟨enabled, steps ++ past.stepLog, types ++ past.typeLog⟩
        ⟨enabled, steps ++ past'.stepLog, types ++ past'.typeLog⟩

namespace Recording.Alike

variable {past past' log log' : Recording}

/-- Nothing was added yet. -/
theorem of_enabled (h : past.enabled = past'.enabled) : Alike past past' past past' := by
  obtain ⟨enabled, steps, types⟩ := past
  obtain ⟨enabled', steps', types'⟩ := past'
  cases h
  exact .since enabled [] []

theorem start (_ : Alike past past' log log') : Alike past past' log.start log'.start :=
  .same _

theorem stop (h : Alike past past' log log') : Alike past past' log.stop log'.stop := by
  cases h with
  | same log => exact .same _
  | since enabled steps types => exact .since false steps types

theorem record (h : Alike past past' log log') (step : String) (type : MessageType) :
    Alike past past' (log.record step type) (log'.record step type) := by
  cases h with
  | same log => exact .same _
  | since enabled steps types =>
    cases enabled with
    | true => exact .since true (step :: steps) (type :: types)
    | false => exact .since false steps types

/-- Logs that go on from the same steps have the same steps. -/
theorem steps_eq (h : Alike past past' log log') (hpast : past.steps = past'.steps) :
    log.steps = log'.steps := by
  cases h with
  | same log => rfl
  | since enabled steps types =>
    have hlog : past.stepLog = past'.stepLog := List.reverse_inj.mp hpast
    unfold Recording.steps
    rw [hlog]

/-- Logs that go on from nothing are the same, whatever is said of the past. -/
theorem of_nothing (h : Alike {} {} log log') : Alike past past' log log' := by
  cases h <;> exact .same _

end Recording.Alike

/-! ## Worlds -/

/-- What a runner was before: its log, and what had happened. -/
structure Past (S : Signature) where
  log : Recording
  journal : List (Event S)

/-- What a runner was so far. -/
def World.past (w : World S) (r : RunnerId S) : Past S := ⟨(w.runner r).recording, w.journal⟩

/-- The worlds are the same but for the log of a runner, which goes on from the past alike, and the
same has happened since. -/
structure Afresh (r : RunnerId S) (past past' : Past S) (w w' : World S) : Prop where
  state : w.state = w'.state
  queues : w.queues = w'.queues
  metrics : w.metrics = w'.metrics
  stopwatch : w.stopwatch = w'.stopwatch
  runners : ∀ r', w.runner r' = { w'.runner r' with recording := (w.runner r').recording }
  others : ∀ r', r' ≠ r → (w.runner r').recording = (w'.runner r').recording
  log : Recording.Alike past.log past'.log (w.runner r).recording (w'.runner r).recording
  happened : ∃ events, w.journal = events ++ past.journal ∧ w'.journal = events ++ past'.journal

/-- A change of a runner that makes this of its log, and does not depend on it otherwise. -/
def Relogs (f : Runner S → Runner S) (g : Recording → Recording) : Prop :=
  ∀ x recording, f { x with recording } = { f x with recording := g recording }

theorem Relogs.recording {f : Runner S → Runner S} {g : Recording → Recording} (h : Relogs f g)
    (x : Runner S) : (f x).recording = g x.recording :=
  congrArg Runner.recording (h x x.recording)

theorem Logs.relogs {f : Runner S → Runner S} {g : Recording → Recording} (h : Logs f g) :
    Relogs f g := by
  intro x recording
  have hrunning : (f x).running = x.running := by
    have hsame := congrArg Runner.running (h x x.running x.recording)
    exact hsame
  refine (h x x.running recording).trans ?_
  rw [← hrunning]

namespace Afresh

variable {r : RunnerId S} {past past' : Past S} {w w' : World S}
  (h : Afresh r past past' w w')
include h

/-- Who does not look at the log sees the same runner. -/
theorem look (r' : RunnerId S) {α : Sort _} {f : Runner S → α}
    (hblind : ∀ x recording, f { x with recording } = f x) :
    f (w.runner r') = f (w'.runner r') := by
  rw [h.runners r']
  exact hblind _ _

theorem queue (q : QueueId S) : w.queue q = w'.queue q := by
  unfold World.queue
  rw [h.queues]

theorem note (e : Event S) : Afresh r past past' (w.note e) (w'.note e) := by
  obtain ⟨events, hjournal, hjournal'⟩ := h.happened
  exact ⟨h.state, h.queues, h.metrics, h.stopwatch, h.runners, h.others, h.log,
    e :: events, congrArg (e :: ·) hjournal, congrArg (e :: ·) hjournal'⟩

theorem setQueue (q : QueueId S) (x : Queue) :
    Afresh r past past' (w.setQueue q x) (w'.setQueue q x) :=
  ⟨h.state, congrArg (·.set q x) h.queues, h.metrics, h.stopwatch, h.runners, h.others, h.log,
    h.happened⟩

/-- A runner changes, and so does its log. -/
theorem modify (r' : RunnerId S) {f : Runner S → Runner S} {g : Recording → Recording}
    (hf : Relogs f g)
    (hg : ∀ {log log'}, Recording.Alike past.log past'.log log log' →
      Recording.Alike past.log past'.log (g log) (g log')) :
    Afresh r past past' (w.setRunner r' (f (w.runner r')))
      (w'.setRunner r' (f (w'.runner r'))) where
  state := h.state
  queues := h.queues
  metrics := h.metrics
  stopwatch := h.stopwatch
  runners r'' := by
    by_cases hr : r' = r''
    · subst hr
      rw [World.runner_setRunner_self, World.runner_setRunner_self, hf.recording]
      exact (congrArg f (h.runners r')).trans (hf _ _)
    · rw [World.runner_setRunner_of_ne _ hr, World.runner_setRunner_of_ne _ hr]
      exact h.runners r''
  others r'' hne := by
    by_cases hr : r' = r''
    · subst hr
      rw [World.runner_setRunner_self, World.runner_setRunner_self, hf.recording, hf.recording,
        h.others r' hne]
    · rw [World.runner_setRunner_of_ne _ hr, World.runner_setRunner_of_ne _ hr]
      exact h.others r'' hne
  log := by
    by_cases hr : r' = r
    · subst hr
      rw [World.runner_setRunner_self, World.runner_setRunner_self, hf.recording, hf.recording]
      exact hg h.log
    · rw [World.runner_setRunner_of_ne _ hr, World.runner_setRunner_of_ne _ hr]
      exact h.log
  happened := h.happened

/-- The log of a runner changes, and this is noted. -/
theorem relog (r' : RunnerId S) {g : Recording → Recording}
    (hg : ∀ {log log'}, Recording.Alike past.log past'.log log log' →
      Recording.Alike past.log past'.log (g log) (g log')) (e : Event S) :
    Afresh r past past'
      ((w.setRunner r' { w.runner r' with recording := g (w.runner r').recording }).note e)
      ((w'.setRunner r' { w'.runner r' with recording := g (w'.runner r').recording }).note e) :=
  (h.modify r' (f := fun x => { x with recording := g x.recording }) (fun _ _ => rfl) hg).note e

/-- A runner changes, and its log does not. -/
theorem steer (r' : RunnerId S) {f : Runner S → Runner S}
    (hf : ∀ x recording, f { x with recording } = { f x with recording }) :
    Afresh r past past' (w.setRunner r' (f (w.runner r'))) (w'.setRunner r' (f (w'.runner r'))) :=
  h.modify r' (g := id) hf id

end Afresh

/-! ## Calls -/

section Calls

variable {app : Application S} {r : RunnerId S} {past past' : Past S}

/-- The request does not ask for the log of the runner, unless this goes on from the same steps. -/
def Request.Impartial (r : RunnerId S) (past past' : Past S) (q : Request S) : Prop :=
  q = .recordedSteps r → past.log.steps = past'.log.steps

theorem sequential_afresh : Sequential (Effect.Lockstep (Afresh r past past')) where
  toChained := chained_lockstep _
  state _ _ h := ⟨h.state, h⟩
  look r' f hblind hf := by
    intro w w' h
    rw [Effect.run_bind, Effect.run_bind]
    dsimp only [Effect.runner]
    rw [← h.look r' fun x recording => hblind x x.running x.hook recording]
    exact hf w w w' h

theorem steer_afresh (r' : RunnerId S) {f : Runner S → Runner S}
    (hf : ∀ x recording, f { x with recording } = { f x with recording }) :
    Effect.Lockstep (Afresh r past past') (Effect.modifyRunner r' f) :=
  fun _ _ h => ⟨rfl, h.steer r' hf⟩

theorem note_afresh (e : Event S) : Effect.Lockstep (Afresh r past past') (Effect.note e) :=
  fun _ _ h => ⟨rfl, h.note e⟩

theorem startRecording_afresh (r' : RunnerId S) :
    Effect.Lockstep (Afresh r past past') (startRecording r') :=
  fun _ _ h => ⟨rfl, h.relog r' Recording.Alike.start _⟩

/-- A request comes to the same if the calls that it makes do. -/
theorem perform_afresh {calls : Calls S}
    (hcalls : ∀ r' c, Effect.Lockstep (Afresh r past past') (calls r' c)) (q : Request S)
    (hq : q.Impartial r past past') :
    Effect.Lockstep (Afresh r past past') (perform app calls q) := by
  cases q with
  | readState => exact sequential_afresh.state
  | writeState state =>
    exact fun _ _ h => ⟨rfl, rfl, h.queues, h.metrics, h.stopwatch, h.runners, h.others, h.log,
      h.happened⟩
  | call r' c => exact hcalls r' c
  | stop r' | actAs r' | setHook r' | setPublisher r' => exact steer_afresh r' fun _ _ => rfl
  | startRecording r' => exact startRecording_afresh r'
  | stopRecording r' =>
    exact fun _ _ h => ⟨rfl, h.relog r' Recording.Alike.stop _⟩
  | actingActor r' => exact fun _ _ h => ⟨h.look r' (f := Runner.actor) fun _ _ => rfl, h⟩
  | latestStep r' =>
    intro w w' h
    refine ⟨?_, h⟩
    exact h.look r' (f := fun x => do
      let step ← (app.model (← x.model)).step? (← x.cursor.latest)
      return step.name) fun _ _ => rfl
  | recordedSteps r' =>
    intro w w' h
    refine ⟨?_, h⟩
    change (w.runner r').recording.steps = (w'.runner r').recording.steps
    by_cases hr : r' = r
    · subst hr
      exact h.log.steps_eq (hq rfl)
    · rw [h.others r' hr]
  | put q m =>
    intro w w' h
    unfold perform
    dsimp only
    rw [← h.queue q]
    split
    · exact ⟨rfl, (h.setQueue q _).note _⟩
    · exact ⟨rfl, h.setQueue q _⟩
  | stopQueue q =>
    intro w w' h
    unfold perform Effect.onQueue
    dsimp only
    rw [← h.queue q]
    exact ⟨rfl, h.setQueue q _⟩
  | sample s =>
    exact fun _ _ h => ⟨rfl, h.state, h.queues, congrArg (·.record s) h.metrics, h.stopwatch,
      h.runners, h.others, h.log, h.happened⟩
  | startTiming =>
    exact fun _ _ h => ⟨rfl, h.state, h.queues, h.metrics, congrArg Stopwatch.start h.stopwatch,
      h.runners, h.others, h.log, h.happened⟩
  | sampleDuration name labels =>
    intro w w' h
    unfold perform
    dsimp only
    rw [h.metrics, h.stopwatch]
    exact ⟨rfl, h.state, h.queues, rfl, rfl, h.runners, h.others, h.log, h.happened⟩

variable (happ : app.Asks (Request.Impartial r past past'))
include happ

/-- **What a session does** comes to the same if the calls that it makes do. -/
theorem session_afresh {calls : Calls S}
    (hcalls : ∀ r' c, Effect.Lockstep (Afresh r past past') (calls r' c)) (r' : RunnerId S)
    (name : S.ModelName) (w : World S) :
    (openSession app r' name w).1.Parts app calls (Effect.Lockstep (Afresh r past past')) := by
  refine Session.Primitives.parts sequential_afresh {
    userCode := happ.userCode sequential_afresh (perform_afresh hcalls) r' name w
    change := fun f hf w w' h => ⟨rfl, ?_⟩
    start := fun step _ m => sequential_afresh.bind (steer_afresh _ fun _ _ => rfl)
      fun _ => note_afresh _
    note := fun e _ _ => note_afresh e }
  rcases hf.logs with hlogs | ⟨step, type, hlogs⟩
  · exact h.modify _ hlogs.relogs id
  · exact h.modify _ hlogs.relogs fun hlog => hlog.record step type

theorem parts_afresh {calls : Calls S}
    (hcalls : ∀ r' c, Effect.Lockstep (Afresh r past past') (calls r' c)) (r' : RunnerId S) :
    Call.Parts app calls r' (Effect.Lockstep (Afresh r past past')) where
  session := session_afresh happ hcalls r'
  look hblind hf w w' h := by
    rw [Effect.run_bind, Effect.run_bind]
    dsimp only [Effect.runner]
    rw [← h.look r' hblind]
    exact hf w w w' h
  modify _ hf := steer_afresh r' hf
  record := startRecording_afresh r'
  note e _ := note_afresh e

/-- **A call comes to the same**, and so do the calls that it makes. -/
theorem callWithin_afresh (depth : Nat) (r' : RunnerId S) (c : Call S) :
    Effect.Lockstep (Afresh r past past') (callWithin app depth r' c) := by
  have hrefuse (r' : RunnerId S) : Effect.Lockstep (Afresh r past past') (refuse r') :=
    sequential_afresh.refuse fun _ => note_afresh _
  induction depth generalizing r' c with
  | zero => exact hrefuse r'
  | succ depth ih =>
    exact sequential_afresh.callWithin (hrefuse r')
      ((parts_afresh happ ih r').occupy sequential_afresh c)

/-! ## Operations -/

theorem request_afresh {q : Request S} (hq : q.Impartial r past past') :
    Effect.Lockstep (Afresh r past past') (perform app (call app) q) :=
  perform_afresh (callWithin_afresh happ S.runners) q hq

theorem inquire_afresh (q : Inquiry S) :
    Effect.Lockstep (Afresh r past past') (inquire app (call app) q) :=
  sequential_afresh.inquiry app (call app)
    (fun _ _ hg => happ.evalGuard sequential_afresh (fun _ hq => request_afresh happ hq) hg) q

omit happ in
theorem common_afresh (q : QueueId S) : Common (Afresh r past past') q where
  queue h := h.queue q
  set x h := h.setQueue q x
  note e _ _ h := h.note e

theorem handleTaken_afresh (q : QueueId S) :
    Effect.Lockstep (Afresh r past past') (handleTaken app q) :=
  (common_afresh q).handleTaken app fun m => happ.exec sequential_afresh
    (fun _ hq => request_afresh happ hq) (happ.consumer q m)

/-- **An operation** leaves the worlds as much the same as they were. To ask for the log changes
nothing. -/
theorem apply_afresh {w w' : World S} (h : Afresh r past past' w w') (o : Operation S) :
    Afresh r past past' (o.apply app w) (o.apply app w') := by
  cases o with
  | request q =>
    by_cases hq : q = .recordedSteps r
    · subst hq
      exact h
    · exact (request_afresh happ (fun heq => absurd heq hq) w w' h).2
  | inquire q => exact (inquire_afresh happ q w w' h).2
  | take q => exact ((common_afresh q).takeNext w w' h).2
  | hand q => exact (handleTaken_afresh happ q w w' h).2

theorem operations_afresh {w w' : World S} (h : Afresh r past past' w w')
    (operations : List (Operation S)) :
    Afresh r past past' (operations.foldl (Operation.apply app) w)
      (operations.foldl (Operation.apply app) w') := by
  induction operations generalizing w w' with
  | nil => exact h
  | cons o operations ih => exact ih (apply_afresh happ h o)

end Calls

/-! ## Runs -/

/-- The worlds are the same but for what an idle runner did so far: the model that it ran, where it
stands, whether it is running, and what is in its log. What the runner was told is the same: its
settings, actor, hook and publisher, and whether it is to record. -/
structure SameButPast (r : RunnerId S) (w w' : World S) : Prop where
  state : w.state = w'.state
  queues : w.queues = w'.queues
  metrics : w.metrics = w'.metrics
  stopwatch : w.stopwatch = w'.stopwatch
  others : ∀ r', r' ≠ r → w.runner r' = w'.runner r'
  settings : (w.runner r).settings = (w'.runner r).settings
  actor : (w.runner r).actor = (w'.runner r).actor
  hook : (w.runner r).hook = (w'.runner r).hook
  publisher : (w.runner r).publisher = (w'.runner r).publisher
  enabled : (w.runner r).recording.enabled = (w'.runner r).recording.enabled
  idle : (w.runner r).activity = .idle
  idle' : (w'.runner r).activity = .idle

/-- The worlds are the same but for the log of a runner, and so are all answers but what is in this
log. -/
structure Indistinct (app : Application S) (r : RunnerId S) (past past' : Past S)
    (w w' : World S) : Prop extends Afresh r past past' w w' where
  request : ∀ q, q ≠ .recordedSteps r →
    (perform app (call app) q w).1 = (perform app (call app) q w').1
  inquire : ∀ q, (inquire app (call app) q w).1 = (inquire app (call app) q w').1
  hand : ∀ q, (handleTaken app q w).1 = (handleTaken app q w').1

/-- The world once a runner became another one, and some events were noted. -/
def World.became (w : World S) (r : RunnerId S) (x : Runner S) (events : List (Event S)) :
    World S :=
  { w.setRunner r x with journal := events ++ w.journal }

section Became

variable (w : World S) (r : RunnerId S) (x y : Runner S) (events : List (Event S))

theorem World.runner_became : (w.became r x events).runner r = x := w.runner_setRunner_self r x

theorem World.runner_became_of_ne {r' : RunnerId S} (h : r ≠ r') :
    (w.became r x events).runner r' = w.runner r' := w.runner_setRunner_of_ne h x

theorem World.setRunner_became : (w.became r x events).setRunner r y = w.became r y events :=
  congrArg (fun v : World S => { v with journal := events ++ w.journal })
    (w.setRunner_setRunner r x y)

end Became

/-- A runner at the start of the model, in the call that runs it. -/
def Runner.atStart (x : Runner S) (name : S.ModelName) : Runner S :=
  { x with
    model := some name
    cursor := {}
    working := {}
    running := true
    recording := if x.settings.recordFromStart then x.recording.start else x.recording
    activity := .resolving }

/-- What is noted until a run begins. -/
def Runner.opening (x : Runner S) (r : RunnerId S) (name : S.ModelName) : List (Event S) :=
  (if x.settings.recordFromStart then [.recording r true] else []) ++ [.ran r name, .entered r]

section Runs

variable {app : Application S} {r : RunnerId S} {past past' : Past S} {w w' : World S}

/-- The session of a run begins at the start of the model. -/
theorem openSession_run (app : Application S) (r : RunnerId S) (name : S.ModelName)
    (w : World S) :
    openSession app r name (recordFromStart r ((w.entered r).started r name)).2 =
      ((w.runner r).session app r name, w.became r ((w.runner r).atStart name)
        ((w.runner r).opening r name)) := by
  have hstarted : (w.entered r).started r name = w.became r { w.runner r with
      model := some name, cursor := {}, running := true, activity := .resolving }
        [.ran r name, .entered r] := by
    unfold World.started
    rw [World.runner_entered]
    exact congrArg (World.note · (.ran r name)) (w.setRunner_became r _ _ [.entered r])
  have hrecorded : (recordFromStart r ((w.entered r).started r name)).2 =
      w.became r { (w.runner r).atStart name with working := (w.runner r).working }
        ((w.runner r).opening r name) := by
    rw [hstarted]
    unfold recordFromStart Runner.atStart Runner.opening
    rw [Effect.run_bind]
    dsimp only [Effect.runner]
    rw [w.runner_became r]
    cases (w.runner r).settings.recordFromStart with
    | false => rfl
    | true =>
      change ((w.became r _ _).setRunner r { (w.became r _ _).runner r with
        recording := ((w.became r _ _).runner r).recording.start }).note (.recording r true) = _
      rw [w.runner_became r, w.setRunner_became r]
      rfl
  rw [hrecorded]
  unfold openSession
  rw [Effect.run_bind, Effect.run_bind]
  dsimp only [Effect.runner, Effect.modifyRunner]
  rw [w.runner_became r, w.setRunner_became r, w.runner_became r]
  rfl

/-- **A run is served in a session** that begins at the start of its model. -/
theorem callWithin_run (app : Application S) (depth : Nat) {r : RunnerId S} {w : World S}
    (hidle : (w.runner r).activity = .idle) (name : S.ModelName) :
    callWithin app (depth + 1) r (.run name) w =
      (((((w.runner r).session app r name).begin app (callWithin app depth)).run
        (w.became r ((w.runner r).atStart name) ((w.runner r).opening r name))).1,
      ((((w.runner r).session app r name).begin app (callWithin app depth)).run
        (w.became r ((w.runner r).atStart name) ((w.runner r).opening r name))).2.left r) := by
  rw [callWithin_of_idle app depth r _ hidle, occupy_eq]
  change (((runModel app (callWithin app depth) r name).run (w.entered r)).1,
    ((runModel app (callWithin app depth) r name).run (w.entered r)).2.left r) = _
  rw [runModel_eq, Attempt.run_lift_bind, openSession_run]

/-- **A run forgets what its runner was.** -/
theorem became_afresh (h : SameButPast r w w') (name : S.ModelName)
    (hlog : Recording.Alike past.log past'.log ((w.runner r).atStart name).recording
      ((w'.runner r).atStart name).recording) (hjournal : past.journal = w.journal)
    (hjournal' : past'.journal = w'.journal) :
    Afresh r past past'
      (w.became r ((w.runner r).atStart name) ((w.runner r).opening r name))
      (w'.became r ((w'.runner r).atStart name) ((w'.runner r).opening r name)) where
  state := h.state
  queues := h.queues
  metrics := h.metrics
  stopwatch := h.stopwatch
  runners r' := by
    by_cases hr : r = r'
    · subst hr
      rw [w.runner_became r, w'.runner_became r]
      unfold Runner.atStart
      rw [h.settings, h.actor, h.hook, h.publisher]
    · rw [w.runner_became_of_ne r _ _ hr, w'.runner_became_of_ne r _ _ hr, h.others r' (Ne.symm hr)]
  others r' hr := by
    rw [w.runner_became_of_ne r _ _ (Ne.symm hr), w'.runner_became_of_ne r _ _ (Ne.symm hr),
      h.others r' hr]
  log := by
    rw [w.runner_became r, w'.runner_became r]
    exact hlog
  happened := by
    refine ⟨(w.runner r).opening r name, ?_, ?_⟩
    · rw [hjournal]
      rfl
    · unfold Runner.opening
      rw [hjournal', h.settings]
      rfl

/-- **Two runs come to the same** if user code does not go by what is left of the past. -/
theorem run_afresh (happ : app.Asks (Request.Impartial r past past')) (h : SameButPast r w w')
    (name : S.ModelName)
    (hlog : Recording.Alike past.log past'.log ((w.runner r).atStart name).recording
      ((w'.runner r).atStart name).recording) (hjournal : past.journal = w.journal)
    (hjournal' : past'.journal = w'.journal) {depth : Nat} (hdepth : 0 < depth) :
    (callWithin app depth r (.run name) w).1 = (callWithin app depth r (.run name) w').1 ∧
      Afresh r past past' (callWithin app depth r (.run name) w).2
        (callWithin app depth r (.run name) w').2 := by
  obtain ⟨depth, rfl⟩ := Nat.exists_eq_add_one.mpr hdepth
  have hsession : (w.runner r).session app r name = (w'.runner r).session app r name := by
    unfold Runner.session
    rw [h.hook, h.settings]
  obtain ⟨hresult, hafter⟩ := (session_afresh happ (callWithin_afresh happ depth) r name
    (recordFromStart r ((w.entered r).started r name)).2).begin sequential_afresh _ _
      (became_afresh h name hlog hjournal hjournal')
  rw [openSession_run] at hresult hafter
  rw [callWithin_run app depth h.idle, callWithin_run app depth h.idle', ← hsession]
  exact ⟨hresult, (hafter.steer r (f := fun x => { x with activity := .idle })
    fun _ _ => rfl).note _⟩

theorem Afresh.indistinct (happ : app.Asks (Request.Impartial r past past'))
    (h : Afresh r past past' w w') : Indistinct app r past past' w w' where
  toAfresh := h
  request _ hq := (request_afresh happ (fun heq => absurd heq hq) w w' h).1
  inquire q := (inquire_afresh happ q w w' h).1
  hand q := (handleTaken_afresh happ q w w' h).1

/-- Worlds whose logs go on from nothing go on from any past. -/
theorem Indistinct.of_nothing {journal journal' : List (Event S)}
    (h : Indistinct app r ⟨{}, journal⟩ ⟨{}, journal'⟩ w w') (log log' : Recording) :
    Indistinct app r ⟨log, journal⟩ ⟨log', journal'⟩ w w' where
  state := h.state
  queues := h.queues
  metrics := h.metrics
  stopwatch := h.stopwatch
  runners := h.runners
  others := h.others
  log := h.log.of_nothing
  happened := h.happened
  request := h.request
  inquire := h.inquire
  hand := h.hand

/-- **A run forgets what was before, but for the log.** Let two worlds be the same but for what an
idle runner did so far. The log of what it did is user code's to read, so let no user code go by it,
unless the same is in it or it is cleared as the run begins; without this the worlds can be told
apart (`remembered_by_porter`). Then the run comes to the same in both, and so does all that is done
afterwards: at every point the same has happened since, the runner stands at the same place and is
running or not, all answers but the log are the same, and the same was added to the log. -/
theorem afresh_of_run (h : SameButPast r w w') (name : S.ModelName)
    (hlog : (w.runner r).settings.recordFromStart = true ∨
      app.Asks (Request.Impartial r (w.past r) (w'.past r))) :
    (call app r (.run name) w).1 = (call app r (.run name) w').1 ∧
    ∀ operations : List (Operation S), Indistinct app r (w.past r) (w'.past r)
      (operations.foldl (Operation.apply app) (call app r (.run name) w).2)
      (operations.foldl (Operation.apply app) (call app r (.run name) w').2) := by
  have hdepth : 0 < S.runners := r.pos
  have hfinal (past past' : Past S) (happ : app.Asks (Request.Impartial r past past'))
      (hlog : Recording.Alike past.log past'.log ((w.runner r).atStart name).recording
        ((w'.runner r).atStart name).recording) (hjournal : past.journal = w.journal)
      (hjournal' : past'.journal = w'.journal) :
      (call app r (.run name) w).1 = (call app r (.run name) w').1 ∧
      ∀ operations : List (Operation S), Indistinct app r past past'
        (operations.foldl (Operation.apply app) (call app r (.run name) w).2)
        (operations.foldl (Operation.apply app) (call app r (.run name) w').2) := by
    obtain ⟨hresult, hafter⟩ := run_afresh happ h name hlog hjournal hjournal' hdepth
    exact ⟨hresult, fun operations => (operations_afresh happ hafter operations).indistinct happ⟩
  by_cases hrecord : (w.runner r).settings.recordFromStart = true
  · -- The log is cleared, so the runner has no past at all.
    have hrecord' : (w'.runner r).settings.recordFromStart = true := h.settings ▸ hrecord
    have hcleared : Recording.Alike {} {} ((w.runner r).atStart name).recording
        ((w'.runner r).atStart name).recording := by
      unfold Runner.atStart
      rw [if_pos hrecord, if_pos hrecord']
      exact .same _
    obtain ⟨hresult, hafter⟩ := hfinal ⟨{}, w.journal⟩ ⟨{}, w'.journal⟩
      (app.asks_of_forall fun _ _ => rfl) hcleared rfl rfl
    exact ⟨hresult, fun operations => (hafter operations).of_nothing _ _⟩
  · -- The logs go on, and nobody goes by what is in them.
    have hrecord' : ¬ (w'.runner r).settings.recordFromStart = true := h.settings ▸ hrecord
    refine hfinal (w.past r) (w'.past r) (hlog.resolve_left hrecord) ?_ rfl rfl
    unfold Runner.atStart
    rw [if_neg hrecord, if_neg hrecord']
    exact .of_enabled h.enabled

end Runs

namespace Shop

/-- All that user code in the shop asks for is whether the warehouse is open. -/
theorem application_asks {P : Request signature → Prop} (h : P .readState) :
    application.Asks P where
  guard _ g hg := by
    cases eq_isOpen hg
    exact ⟨h, fun _ => trivial⟩
  reaction _ step hstep program hprogram m := by
    have hreactions : (application.model ()).steps.map (·.reaction) =
        [.includeUseCase "Payment", publishing "parcel", publishing "thanks", publishing "note",
          publishing "apology", .function fun m => .done (accept m), publishing "reason",
          .continueAt "Pay"] := rfl
    have hmem := hreactions ▸ List.mem_map_of_mem (f := Step.reaction) hstep
    rw [hprogram] at hmem
    simp only [publishing, List.mem_cons, Reaction.function.injEq, reduceCtorEq, false_or, or_false,
      List.not_mem_nil] at hmem
    rcases hmem with rfl | rfl | rfl | rfl | rfl | rfl <;> trivial
  inbox _ actor inbox hinbox m := by
    obtain ⟨found, hfound, hinbox⟩ := Option.bind_eq_some_iff.mp hinbox
    rcases List.mem_append.mp (List.mem_of_find?_eq_some hfound) with hmem | hmem
    · cases List.mem_singleton.mp hmem
      cases hinbox
      exact ⟨h, fun | true => trivial | false => trivial⟩
    · obtain ⟨_, -, rfl⟩ := List.mem_map.mp hmem
      cases hinbox
  hook name := name.elim
  after name := name.elim
  publisher _ _ := trivial
  consumer q := q.elim0

/-- What the clerk did so far is nothing in the one world; in the other one an order was taken, and
then the clerk was stopped. -/
theorem sameButPast_abandoned : SameButPast clerk recording abandoned where
  state := by decide +kernel
  queues := Vector.ext fun i hi => absurd hi (Nat.not_lt_zero i)
  metrics := by
    have hrecording : recording.metrics.recorded = [] := List.isEmpty_iff.mp (by decide +kernel)
    have habandoned : abandoned.metrics.recorded = [] := List.isEmpty_iff.mp (by decide +kernel)
    exact congrArg Metrics.mk (hrecording.trans habandoned.symm)
  stopwatch := by decide +kernel
  others r hr := absurd (Subsingleton.elim r clerk) hr
  settings := by decide +kernel
  actor := by decide +kernel
  hook := by decide +kernel
  publisher := by decide +kernel
  enabled := by decide +kernel
  idle := by decide +kernel
  idle' := by decide +kernel

end Shop

/-- In the shop a clerk who was stopped while an order waited to be paid for begins anew: the next
order is taken as if there had not been any. -/
theorem afresh_in_shop :
    SameButPast Shop.clerk Shop.recording Shop.abandoned ∧
    (Shop.abandoned.runner Shop.clerk).running = false ∧
    (Shop.abandoned.runner Shop.clerk).cursor.frames ≠ [] ∧
    (Shop.recording.past Shop.clerk).log.steps = [] ∧
    (Shop.abandoned.past Shop.clerk).log.steps = ["Order"] ∧
    Shop.application.Asks
      (Request.Impartial Shop.clerk (Shop.recording.past Shop.clerk)
        (Shop.abandoned.past Shop.clerk)) ∧
    (call Shop.application Shop.clerk (.run ()) Shop.recording).1 =
      (call Shop.application Shop.clerk (.run ()) Shop.abandoned).1 ∧
    Indistinct Shop.application Shop.clerk (Shop.recording.past Shop.clerk)
      (Shop.abandoned.past Shop.clerk)
      (([.request (.call Shop.clerk (.react Shop.order))] : List (Operation _)).foldl
        (Operation.apply Shop.application)
        (call Shop.application Shop.clerk (.run ()) Shop.recording).2)
      (([.request (.call Shop.clerk (.react Shop.order))] : List (Operation _)).foldl
        (Operation.apply Shop.application)
        (call Shop.application Shop.clerk (.run ()) Shop.abandoned).2) := by
  have hasks : Shop.application.Asks (Request.Impartial Shop.clerk (Shop.recording.past Shop.clerk)
      (Shop.abandoned.past Shop.clerk)) := Shop.application_asks nofun
  obtain ⟨hresult, hafter⟩ := afresh_of_run Shop.sameButPast_abandoned () (.inr hasks)
  exact ⟨Shop.sameButPast_abandoned, by decide +kernel, by decide +kernel, by decide +kernel,
    by decide +kernel, hasks, hresult, hafter _⟩

namespace Porter

/-- Whether somebody was welcomed before is all that the worlds differ in. -/
theorem sameButPast_welcomed : SameButPast porter recording welcomed where
  state := rfl
  queues := Vector.ext fun i hi => absurd hi (Nat.not_lt_zero i)
  metrics := by
    have hrecording : recording.metrics.recorded = [] := List.isEmpty_iff.mp (by decide +kernel)
    have hwelcomed : welcomed.metrics.recorded = [] := List.isEmpty_iff.mp (by decide +kernel)
    exact congrArg Metrics.mk (hrecording.trans hwelcomed.symm)
  stopwatch := by decide +kernel
  others r hr := absurd (Subsingleton.elim r porter) hr
  settings := by decide +kernel
  actor := by decide +kernel
  hook := by decide +kernel
  publisher := by decide +kernel
  enabled := by decide +kernel
  idle := by decide +kernel
  idle' := by decide +kernel

end Porter

/-- A porter who goes by the log tells the worlds apart: after the same run, the same knock is
answered in the one and not in the other. -/
theorem remembered_by_porter :
    SameButPast Porter.porter Porter.recording Porter.welcomed ∧
    (call Porter.application Porter.porter (.react Porter.knock)
      (Porter.atDoor Porter.recording)).1 = .ok (some Porter.welcome) ∧
    (call Porter.application Porter.porter (.react Porter.knock)
      (Porter.atDoor Porter.welcomed)).1 = .ok none :=
  ⟨Porter.sameButPast_welcomed, by decide +kernel, by decide +kernel⟩

end UseCaseEngine
