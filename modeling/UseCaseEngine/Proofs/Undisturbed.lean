import UseCaseEngine.Proofs.Effects

/-!
# Calls in progress are not disturbed

While a runner is in a call, user code may ask for anything, also for calls on the same runner and
on others. It cannot reach the session of the call: calls on the runner are refused, and nothing
else changes its model, its cursors or its limits. All it can do to the runner is to start or stop
its recording, to make another actor act, to replace its hook or publisher for the next call, and
to stop it. The actor counts from the next resolution on; whether the runner was stopped does not
count before the next call.

* `callWithin_undisturbed`: no call disturbs a runner that is in one.
* `perform_undisturbed`: and so no request does.
* `callWithin_grows`: whatever calls do, the journal only grows.
-/

namespace UseCaseEngine

variable {S : Signature}

/-! ## Events of other sessions -/

section Foreign

variable {r : RunnerId S} {e : Event S} (h : e.session? ≠ some r)
include h

theorem foreign_turn? : e.turn? r = none := by
  cases e <;> simp_all [Event.session?, Event.turn?]

theorem foreign_trigger? : e.trigger? r = none := by
  cases e <;> simp_all [Event.session?, Event.trigger?]

theorem foreign_reaction? : e.reaction? r = none := by
  cases e <;> simp_all [Event.session?, Event.reaction?]

theorem foreign_resolvedAt? : e.resolvedAt? r = none := by
  cases e <;> simp_all [Event.session?, Event.resolvedAt?]

theorem foreign_ran? : e.ran? r = none := by
  cases e <;> simp_all [Event.session?, Event.ran?]

end Foreign

/-- An event of the recording of one runner says nothing about the log of another. -/
theorem hear_of_recording_ne {r r' : RunnerId S} (h : r ≠ r') (on : Bool)
    (model : Model (code S)) (x : Recording) : x.hear r' model (.recording r on) = x := by
  simp [Recording.hear, h]

/-- Except for recordings, an event of another session says nothing about the log of a runner. -/
theorem hear_of_foreign {r : RunnerId S} {e : Event S} (h : e.session? ≠ some r)
    (hon : ∀ on, e ≠ .recording r on) (model : Model (code S)) (x : Recording) :
    x.hear r model e = x := by
  cases e with
  | recording r' on =>
    have hne : r' ≠ r := fun heq => hon on (heq ▸ rfl)
    exact hear_of_recording_ne hne on model x
  | reacted r' step m output =>
    have hne : r' ≠ r := fun heq => h (congrArg some heq)
    simp [Recording.hear, hne]
  | _ => rfl

/-! ## What a session relies on -/

/-- Nothing has changed that a call in progress relies on. A publisher may have been replaced by
another one, and the runner may have been stopped, but it was not started. -/
structure SameSession (x y : Runner S) : Prop where
  settings : y.settings = x.settings
  model : y.model = x.model
  cursor : y.cursor = x.cursor
  working : y.working = x.working
  activity : y.activity = x.activity
  publisher : x.publisher.isSome = true → y.publisher.isSome = true
  running : x.running = false → y.running = false

theorem SameSession.refl (x : Runner S) : SameSession x x := ⟨rfl, rfl, rfl, rfl, rfl, id, id⟩

theorem SameSession.trans {x y z : Runner S} (hxy : SameSession x y) (hyz : SameSession y z) :
    SameSession x z where
  settings := hyz.settings.trans hxy.settings
  model := hyz.model.trans hxy.model
  cursor := hyz.cursor.trans hxy.cursor
  working := hyz.working.trans hxy.working
  activity := hyz.activity.trans hxy.activity
  publisher h := hyz.publisher (hxy.publisher h)
  running h := hyz.running (hxy.running h)

/-- What happens to a runner from outside of its calls: the call in progress, if there is one, can
go on as if nothing had happened, and the log is what the events make of it. -/
structure Apart (r : RunnerId S) (events : List (Event S)) (x y : Runner S) : Prop where
  session : SameSession x y
  foreign : ∀ e ∈ events, e.session? ≠ some r
  recording : ∀ model, y.recording = x.recording.replay r model events

namespace Apart

variable {r : RunnerId S}

theorem refl (x : Runner S) : Apart r [] x x :=
  ⟨SameSession.refl x, fun _ he => absurd he List.not_mem_nil, fun _ => rfl⟩

theorem trans {new old : List (Event S)} {x y z : Runner S} (hxy : Apart r old x y)
    (hyz : Apart r new y z) : Apart r (new ++ old) x z where
  session := hxy.session.trans hyz.session
  foreign e he := (List.mem_append.mp he).elim (hyz.foreign e) (hxy.foreign e)
  recording model := by
    rw [Recording.replay_append, ← hxy.recording model, ← hyz.recording model]

theorem of_event {e : Event S} (h : e.session? ≠ some r) (hon : ∀ on, e ≠ .recording r on)
    (x : Runner S) : Apart r [e] x x where
  session := SameSession.refl x
  foreign e' he' := by
    obtain rfl := List.mem_singleton.mp he'
    exact h
  recording model := (hear_of_foreign h hon model x.recording).symm

variable {events : List (Event S)} {x y : Runner S} (h : Apart r events x y)
include h

theorem turns : turns r events = [] :=
  readOff_eq_nil_iff.mpr fun e he => foreign_turn? (h.foreign e he)

theorem triggers : triggers r events = [] :=
  readOff_eq_nil_iff.mpr fun e he => foreign_trigger? (h.foreign e he)

theorem reactions : reactions r events = [] :=
  readOff_eq_nil_iff.mpr fun e he => foreign_reaction? (h.foreign e he)

theorem ran : ∀ e ∈ events, e.ran? r = none := fun e he => foreign_ran? (h.foreign e he)

end Apart

/-- A runner that is in a call stays in it, and what happens meanwhile is apart from it. -/
def Undisturbed (r : RunnerId S) (w w' : World S) : Prop :=
  (w.runner r).activity ≠ .idle →
    ∃ events, w'.journal = events ++ w.journal ∧ Apart r events (w.runner r) (w'.runner r)

theorem composes_undisturbed (r : RunnerId S) : Composes (Undisturbed r) where
  refl w _ := ⟨[], rfl, Apart.refl _⟩
  trans := by
    intro w₁ w₂ w₃ h₁₂ h₂₃ hbusy
    obtain ⟨old, hold, hapart⟩ := h₁₂ hbusy
    obtain ⟨new, hnew, hapart'⟩ := h₂₃ (by rwa [hapart.session.activity])
    exact ⟨new ++ old, by rw [hnew, hold, List.append_assoc], hapart.trans hapart'⟩

/-! ## Requests -/

/-- What requests other than calls do to the world: to every runner, something apart from its
calls. -/
def Aside (w w' : World S) : Prop :=
  ∃ events, w'.journal = events ++ w.journal ∧
    (∀ e ∈ events, e.session? = none ∧ e.isCall = false) ∧
      ∀ r, Apart r events (w.runner r) (w'.runner r)

theorem Aside.undisturbed {w w' : World S} (h : Aside w w') (r : RunnerId S) :
    Undisturbed r w w' := by
  obtain ⟨events, hjournal, -, hapart⟩ := h
  exact fun _ => ⟨events, hjournal, hapart r⟩

theorem aside_of_runners {w w' : World S} (hjournal : w'.journal = w.journal)
    (hrunners : w'.runners = w.runners) : Aside w w' := by
  refine ⟨[], hjournal, fun _ he => absurd he List.not_mem_nil, fun r => ?_⟩
  have hrunner : w'.runner r = w.runner r := by
    unfold World.runner
    rw [hrunners]
  rw [hrunner]
  exact Apart.refl _

/-- A change of a queue, and the note of it. -/
theorem aside_queue {e : Event S} (h : e.session? = none ∧ e.isCall = false)
    (hon : ∀ r on, e ≠ .recording r on) (q : QueueId S) (x : Queue) (w : World S) :
    Aside w ((w.setQueue q x).note e) := by
  refine ⟨[e], rfl, fun e' he' => ?_, fun r => Apart.of_event (by simp [h.1]) (hon r) _⟩
  obtain rfl := List.mem_singleton.mp he'
  exact h

theorem runner_modifyRunner_self (r : RunnerId S) (f : Runner S → Runner S) (w : World S) :
    ((Effect.modifyRunner r f w).2).runner r = f (w.runner r) :=
  World.runner_setRunner_self w r _

theorem runner_modifyRunner (r r' : RunnerId S) (f : Runner S → Runner S) (w : World S) :
    ((Effect.modifyRunner r f w).2).runner r' =
      if r = r' then f (w.runner r') else w.runner r' := by
  by_cases h : r = r'
  · subst h
    simp [Effect.modifyRunner]
  · simp [Effect.modifyRunner, h, World.runner_setRunner_of_ne]

/-- A change of a runner that leaves the log and whatever a call relies on alone. -/
theorem aside_modifyRunner (r : RunnerId S) (f : Runner S → Runner S)
    (h : ∀ x, SameSession x (f x) ∧ (f x).recording = x.recording) :
    Effect.Within Aside (Effect.modifyRunner r f) := by
  refine fun w => ⟨[], rfl, fun _ he => absurd he List.not_mem_nil, fun r' => ?_⟩
  rw [runner_modifyRunner]
  split
  · exact ⟨(h _).1, fun _ he => absurd he List.not_mem_nil, fun _ => (h _).2⟩
  · exact Apart.refl _

/-- A recording that is started or stopped, and the note of it. -/
theorem aside_recording (r : RunnerId S) (on : Bool) :
    Effect.Within Aside (do
      Effect.modifyRunner r fun x =>
        { x with recording := if on then x.recording.start else x.recording.stop }
      Effect.note (.recording r on)) := by
  refine fun w => ⟨[.recording r on], rfl, fun e he => ?_, fun r' => ?_⟩
  · obtain rfl := List.mem_singleton.mp he
    exact ⟨rfl, rfl⟩
  · change Apart r' [.recording r on] (w.runner r')
      ((Effect.modifyRunner r (fun x => { x with recording := _ }) w).2.runner r')
    rw [runner_modifyRunner]
    split
    · rename_i heq
      subst heq
      refine ⟨⟨rfl, rfl, rfl, rfl, rfl, id, id⟩, fun e he => ?_, fun model => ?_⟩
      · obtain rfl := List.mem_singleton.mp he
        exact nofun
      · simp [Recording.hear]
    · rename_i hne
      refine ⟨SameSession.refl _, fun e he => ?_, fun model => ?_⟩
      · obtain rfl := List.mem_singleton.mp he
        exact nofun
      · exact (hear_of_recording_ne hne on model _).symm

/-- **Requests keep within a relation if calls do**, as long as whatever the other requests do is
within it. -/
theorem perform_within {R : World S → World S → Prop} (haside : ∀ w w', Aside w w' → R w w')
    (app : Application S) {calls : Calls S} (hcalls : ∀ r c, Effect.Within R (calls r c))
    (q : Request S) : Effect.Within R (perform app calls q) := by
  cases q with
  | call r c => exact hcalls r c
  | readState => exact fun w => haside _ _ (aside_of_runners rfl rfl)
  | writeState state => exact fun w => haside _ _ (aside_of_runners rfl rfl)
  | stop r =>
    exact fun w => haside _ _ (aside_modifyRunner r (fun x => { x with running := false })
      (fun _ => ⟨⟨rfl, rfl, rfl, rfl, rfl, id, fun _ => rfl⟩, rfl⟩) w)
  | actAs r actor =>
    exact fun w => haside _ _ (aside_modifyRunner r (fun x => { x with actor })
      (fun _ => ⟨⟨rfl, rfl, rfl, rfl, rfl, id, id⟩, rfl⟩) w)
  | startRecording r => exact fun w => haside _ _ (aside_recording r true w)
  | stopRecording r => exact fun w => haside _ _ (aside_recording r false w)
  | setHook r hook =>
    exact fun w => haside _ _ (aside_modifyRunner r (fun x => { x with hook := some hook })
      (fun _ => ⟨⟨rfl, rfl, rfl, rfl, rfl, id, id⟩, rfl⟩) w)
  | setPublisher r publisher =>
    exact fun w => haside _ _ (aside_modifyRunner r
      (fun x => { x with publisher := some publisher })
      (fun _ => ⟨⟨rfl, rfl, rfl, rfl, rfl, fun _ => rfl, id⟩, rfl⟩) w)
  | actingActor r => exact fun w => haside _ _ (aside_of_runners rfl rfl)
  | latestStep r => exact fun w => haside _ _ (aside_of_runners rfl rfl)
  | recordedSteps r => exact fun w => haside _ _ (aside_of_runners rfl rfl)
  | put q m =>
    intro w
    refine haside _ _ ?_
    unfold perform
    dsimp only
    split
    · exact aside_queue ⟨rfl, rfl⟩ (fun _ _ h => by cases h) q _ w
    · exact aside_of_runners rfl rfl
  | stopQueue q => exact fun w => haside _ _ (aside_of_runners rfl rfl)
  | sample s => exact fun w => haside _ _ (aside_of_runners rfl rfl)
  | startTiming => exact fun w => haside _ _ (aside_of_runners rfl rfl)
  | sampleDuration name labels => exact fun w => haside _ _ (aside_of_runners rfl rfl)

/-! ## Calls -/

section Calls

variable (app : Application S) (r : RunnerId S)

/-- Refusing a call is apart from the calls of every runner. -/
theorem refuse_apart (r r' : RunnerId S) (w : World S) :
    ∃ events, (refuse r' w).2.journal = events ++ w.journal ∧
      Apart r events (w.runner r) ((refuse r' w).2.runner r) :=
  ⟨_, rfl, Apart.of_event (e := .refused r' (w.runner r').activity.label) nofun nofun _⟩

/-- A call on another runner does not disturb the runner if the calls of its user code do not. -/
theorem primitives_undisturbed {calls : Calls S}
    (hcalls : ∀ r' c, Effect.Within (Undisturbed r) (calls r' c)) {r' : RunnerId S} (h : r' ≠ r) :
    Primitives app calls r' (Effect.Within (Undisturbed r)) where
  perform := perform_within (fun _ _ haside => haside.undisturbed r) app hcalls
  look := (composes_undisturbed r).look r'
  modify f w _ := by
    refine ⟨[], rfl, ?_⟩
    rw [runner_modifyRunner, if_neg h]
    exact Apart.refl _
  note e he w _ := by
    refine ⟨[e], rfl, Apart.of_event ?_ ?_ _⟩
    · rw [he]
      exact fun heq => h (Option.some.inj heq)
    · rintro on rfl
      cases he

/-- **No call disturbs a runner that is in one.** A call on the runner itself is refused. -/
theorem callWithin_undisturbed (depth : Nat) (r' : RunnerId S) (c : Call S) :
    Effect.Within (Undisturbed r) (callWithin app depth r' c) := by
  induction depth generalizing r' c with
  | zero => exact fun w _ => refuse_apart r r' w
  | succ depth ih =>
    by_cases h : r' = r
    · subst h
      intro w hbusy
      rw [callWithin_of_busy app (depth + 1) r' c w hbusy]
      exact refuse_apart r' r' w
    · have hR := (composes_undisturbed r).sequential
      exact hR.callWithin (fun w _ => refuse_apart r r' w)
        ((primitives_undisturbed app r ih h).occupy hR c)

theorem perform_undisturbed (depth : Nat) (q : Request S) :
    Effect.Within (Undisturbed r) (perform app (callWithin app depth) q) :=
  perform_within (fun _ _ haside => haside.undisturbed r) app
    (callWithin_undisturbed app r depth) q

end Calls

/-! ## Journals only grow -/

/-- Nothing is struck from the journal. -/
def Grows (w w' : World S) : Prop := w.journal <:+ w'.journal

theorem composes_grows : Composes (Grows (S := S)) where
  refl w := List.suffix_refl w.journal
  trans h₁₂ h₂₃ := List.IsSuffix.trans h₁₂ h₂₃

theorem Aside.grows {w w' : World S} (h : Aside w w') : Grows w w' := by
  obtain ⟨events, hjournal, -⟩ := h
  exact ⟨events, hjournal.symm⟩

theorem note_grows (e : Event S) : Effect.Within Grows (Effect.note e) := fun w =>
  List.suffix_cons e w.journal

section Grows

variable (app : Application S) {calls : Calls S}
  (hcalls : ∀ r c, Effect.Within Grows (calls r c)) (r : RunnerId S)
include hcalls

theorem primitives_grows : Primitives app calls r (Effect.Within Grows) where
  perform := perform_within (fun _ _ => Aside.grows) app hcalls
  look := composes_grows.look r
  modify _ w := List.suffix_refl w.journal
  note e _ := note_grows e

theorem Session.primitives_grows (s : Session S) : s.Primitives app calls (Effect.Within Grows) :=
  (UseCaseEngine.primitives_grows app hcalls s.runner).session composes_grows.sequential

theorem Session.parts_grows (s : Session S) : s.Parts app calls (Effect.Within Grows) :=
  (s.primitives_grows app hcalls).parts composes_grows.sequential

end Grows

/-- **No call strikes anything from the journal.** -/
theorem callWithin_grows (app : Application S) (depth : Nat) (r : RunnerId S) (c : Call S) :
    Effect.Within Grows (callWithin app depth r c) := by
  induction depth generalizing r c with
  | zero => exact fun w => List.suffix_cons _ w.journal
  | succ depth ih =>
    have hR := composes_grows.sequential (S := S)
    exact hR.callWithin (fun w => List.suffix_cons _ w.journal)
      ((primitives_grows app ih r).occupy hR c)

end UseCaseEngine
