import UseCaseEngine.Proofs.Placement
import UseCaseEngine.Proofs.Undisturbed

/-!
# What a call amounts to

A call works on a cursor of its own and commits it from time to time; it may end early in many
ways. However it ends, what it did to its runner is told by its events: the committed cursor is
where the turns of its steps lead, every step that was triggered took its turn, and the log of
recorded steps has one entry for every step that reacted while recording was on.

The cursor is committed where a step's effect is known (`commit`), before an unknown name in it is
reported and before anything is delivered; and where a step has failed, before somebody is looked
for who handles that. The log is written in between, right after the reaction (`record`).

* `around_spec`: what happens around a reaction, and that a step that is not suppressed reacts.
* `account_of_turn`: one step that is offered, reacts and moves the cursor.
* `parts_told`: so the parts of a session only do what their events tell.
-/

namespace UseCaseEngine

variable {S : Signature}

/-! ## Between turns -/

/-- What happens to a runner between the turns of its steps, also if steps are triggered. -/
structure Lull (r : RunnerId S) (triggered : List (StepId × Message)) (events : List (Event S))
    (x y : Runner S) : Prop where
  session : SameSession x y
  turns : turns r events = []
  triggers : triggers r events = triggered
  reactions : reactions r events = []
  resolved : ∀ e ∈ events, e.resolvedAt? r = none
  ran : ∀ e ∈ events, e.ran? r = none
  recording : ∀ model, y.recording = x.recording.replay r model events

theorem Apart.lull {r : RunnerId S} {events : List (Event S)} {x y : Runner S}
    (h : Apart r events x y) : Lull r [] events x y :=
  ⟨h.session, h.turns, h.triggers, h.reactions, fun e he => foreign_resolvedAt? (h.foreign e he),
    h.ran, h.recording⟩

theorem Lull.trans {r : RunnerId S} {ts us : List (StepId × Message)} {new old : List (Event S)}
    {x y z : Runner S} (hxy : Lull r ts old x y) (hyz : Lull r us new y z) :
    Lull r (ts ++ us) (new ++ old) x z where
  session := hxy.session.trans hyz.session
  turns := by
    unfold UseCaseEngine.turns
    rw [readOff_append]
    exact congr (congrArg (· ++ ·) hxy.turns) hyz.turns
  triggers := by
    unfold UseCaseEngine.triggers
    rw [readOff_append]
    exact congr (congrArg (· ++ ·) hxy.triggers) hyz.triggers
  reactions := by
    unfold UseCaseEngine.reactions
    rw [readOff_append]
    exact congr (congrArg (· ++ ·) hxy.reactions) hyz.reactions
  resolved e he := (List.mem_append.mp he).elim (hyz.resolved e) (hxy.resolved e)
  ran e he := (List.mem_append.mp he).elim (hyz.ran e) (hxy.ran e)
  recording model := by
    rw [Recording.replay_append, ← hxy.recording model, ← hyz.recording model]

/-- While the runner is in a call, it goes on between the turns of its steps. -/
def Pause (r : RunnerId S) (triggered : List (StepId × Message)) (w w' : World S) : Prop :=
  (w.runner r).activity ≠ .idle →
    ∃ events, w'.journal = events ++ w.journal ∧
      Lull r triggered events (w.runner r) (w'.runner r)

theorem Pause.trans {r : RunnerId S} {ts us : List (StepId × Message)} {w₁ w₂ w₃ : World S}
    (h₁₂ : Pause r ts w₁ w₂) (h₂₃ : Pause r us w₂ w₃) : Pause r (ts ++ us) w₁ w₃ := by
  intro hbusy
  obtain ⟨old, hold, hlull⟩ := h₁₂ hbusy
  obtain ⟨new, hnew, hlull'⟩ := h₂₃ (by rwa [hlull.session.activity])
  exact ⟨new ++ old, by rw [hnew, hold, List.append_assoc], hlull.trans hlull'⟩

theorem Undisturbed.pause {r : RunnerId S} {w w' : World S} (h : Undisturbed r w w') :
    Pause r [] w w' := by
  intro hbusy
  obtain ⟨events, hjournal, hapart⟩ := h hbusy
  exact ⟨events, hjournal, hapart.lull⟩

/-- A note of anything but a resolution, a reaction, a turn or the start of a run. -/
theorem pause_note {r : RunnerId S} {e : Event S} (hturn : e.turn? r = none)
    (hreaction : e.reaction? r = none) (hresolved : e.resolvedAt? r = none)
    (hran : e.ran? r = none) (hhear : ∀ model x, Recording.hear r model e x = x) (w : World S) :
    Pause r (e.trigger? r).toList w (Effect.note e w).2 := by
  refine fun _ => ⟨[e], rfl, SameSession.refl _, ?_, ?_, ?_, ?_, ?_, fun model => ?_⟩
  · simp [turns, readOff_cons, hturn]
  · simp [triggers, readOff_cons]
  · simp [reactions, readOff_cons, hreaction]
  · intro e' he'
    obtain rfl := List.mem_singleton.mp he'
    exact hresolved
  · intro e' he'
    obtain rfl := List.mem_singleton.mp he'
    exact hran
  · exact (hhear model _).symm

section Around

variable (app : Application S) {calls : Calls S} (s : Session S)
  (hperform : ∀ q, Effect.Within (Undisturbed s.runner) (perform app calls q))
include hperform

theorem exec_pause {α : Type} (p : Action S α) (w : World S) :
    Pause s.runner [] w (exec app calls p w).2 :=
  ((composes_undisturbed s.runner).sequential.exec app calls hperform p w).pause

theorem trigger_pause (step : Step (code S)) (m : Message) (w : World S) :
    Pause s.runner [(step.id, m)] w (s.trigger app calls step m w).2 := by
  have hexec : Pause s.runner [] w (Session.execReaction app calls step m w).2 :=
    ((composes_undisturbed s.runner).sequential.execReaction app calls hperform step m w).pause
  have hnote := pause_note (r := s.runner)
    (e := .triggered s.runner step.id m (Session.execReaction app calls step m w).1)
    rfl rfl rfl rfl (fun _ _ => rfl) (Session.execReaction app calls step m w).2
  have hpause := hexec.trans hnote
  simp only [Event.trigger?, ↓reduceIte, Option.toList_some, List.nil_append] at hpause
  exact hpause

/-- What becomes of a step that is offered to the hook: if it is suppressed it is not triggered,
and otherwise it is triggered once and then reacts. -/
def Session.Around (step : Step (code S)) (m : Message) (w : World S) :
    Option Output × World S → Prop
  | (none, w') => Pause s.runner [] w w'
  | (some output, w') =>
    ∃ w₁, Pause s.runner [(step.id, m)] w w₁ ∧
      w' = w₁.note (.reacted s.runner step.id m output w₁.state)

theorem around_spec (step : Step (code S)) (m : Message) (w : World S) :
    s.Around step m w (s.around app calls step m w) := by
  unfold Session.around
  rw [Effect.run_bind]
  have hoffered : Pause s.runner [] w (Effect.note (.offered s.runner step.id m) w).2 :=
    pause_note rfl rfl rfl rfl (fun _ _ => rfl) w
  generalize (Effect.note (.offered s.runner step.id m) w).2 = w₁ at hoffered ⊢
  rw [Effect.run_bind]
  have hhook : Pause s.runner [] w _ :=
    hoffered.trans (exec_pause app s hperform (s.hook step m) w₁)
  cases (exec app calls (s.hook step m) w₁).1 with
  | suppress output => exact hhook
  | trigger after =>
    dsimp only
    rw [Effect.run_bind, Effect.run_bind]
    have htrigger := hhook.trans (trigger_pause app s hperform step m _)
    exact ⟨_, htrigger.trans (exec_pause app s hperform (after _) _), rfl⟩

end Around

/-! ## Turns -/

/-- The runner is in a call, and the call has committed its cursor. -/
structure Engaged (x : Runner S) : Prop where
  busy : x.activity ≠ .idle
  committed : x.working = x.cursor

/-- Every resolution in a list of events was made where the turns before it lead. -/
def ResolvedIn (model : Model (code S)) (r : RunnerId S) (start : Cursor) :
    List (Event S) → Prop
  | [] => True
  | e :: earlier =>
    (∀ c, e.resolvedAt? r = some c → c = start.replay model (turns r earlier)) ∧
      ResolvedIn model r start earlier

theorem resolvedIn_append {model : Model (code S)} {r : RunnerId S} {start : Cursor}
    {new old : List (Event S)} (hold : ResolvedIn model r start old)
    (hnew : ResolvedIn model r (start.replay model (turns r old)) new) :
    ResolvedIn model r start (new ++ old) := by
  induction new with
  | nil => exact hold
  | cons e new ih =>
    refine ⟨fun c hc => ?_, ih hnew.2⟩
    have hturns : turns r (new ++ old) = turns r old ++ turns r new := readOff_append _ _ _
    change c = start.replay model (turns r (new ++ old))
    rw [hnew.1 c hc, hturns, replay_append]

theorem resolvedIn_of_none {model : Model (code S)} {r : RunnerId S} {start : Cursor}
    {events : List (Event S)} (h : ∀ e ∈ events, e.resolvedAt? r = none) :
    ResolvedIn model r start events := by
  induction events with
  | nil => trivial
  | cons e events ih =>
    refine ⟨fun c hc => ?_, ih fun e he => h e (List.mem_cons_of_mem _ he)⟩
    rw [h e List.mem_cons_self] at hc
    cases hc

/-- What happened to a runner amounts to the turns of its steps, taken from a cursor on and recorded
in a log. -/
structure Account (model : Model (code S)) (r : RunnerId S) (start : Cursor) (log : Recording)
    (events : List (Event S)) (y : Runner S) : Prop where
  cursor : y.cursor = start.replay model (turns r events)
  heard : Turn.AllHeard model start (turns r events)
  resolved : ResolvedIn model r start events
  triggers : triggers r events = (turns r events).map fun t => (t.step, t.message)
  reactions : reactions r events = (turns r events).map fun t => (t.step, t.message, t.output)
  recording : y.recording = log.replay r model events

section Account

variable {model : Model (code S)} {r : RunnerId S}

theorem Account.trans {start : Cursor} {log : Recording} {new old : List (Event S)}
    {y z : Runner S} (hxy : Account model r start log old y)
    (hyz : Account model r y.cursor y.recording new z) :
    Account model r start log (new ++ old) z := by
  have hturns : turns r (new ++ old) = turns r old ++ turns r new := readOff_append _ _ _
  refine ⟨?_, ?_, ?_, ?_, ?_, ?_⟩
  · rw [hturns, replay_append, ← hxy.cursor, hyz.cursor]
  · rw [hturns, allHeard_append, ← hxy.cursor]
    exact ⟨hxy.heard, hyz.heard⟩
  · exact resolvedIn_append hxy.resolved (hxy.cursor ▸ hyz.resolved)
  · rw [hturns, List.map_append, ← hxy.triggers, ← hyz.triggers]
    exact readOff_append _ _ _
  · rw [hturns, List.map_append, ← hxy.reactions, ← hyz.reactions]
    exact readOff_append _ _ _
  · rw [Recording.replay_append, ← hxy.recording, hyz.recording]

theorem Lull.account {events : List (Event S)} {x y : Runner S} (h : Lull r [] events x y) :
    Account model r x.cursor x.recording events y := by
  refine ⟨?_, ?_, resolvedIn_of_none h.resolved, ?_, ?_, h.recording model⟩
  · rw [h.turns, h.session.cursor]
    rfl
  · rw [h.turns]
    trivial
  · rw [h.turns, h.triggers]
    rfl
  · rw [h.turns, h.reactions]
    rfl

/-- The call in progress on the runner goes on, and what it did amounts to the turns of its steps
in the model. -/
def Told (model : Model (code S)) (r : RunnerId S) (w w' : World S) : Prop :=
  Engaged (w.runner r) →
    Engaged (w'.runner r) ∧ (w'.runner r).model = (w.runner r).model ∧
      ∃ events, w'.journal = events ++ w.journal ∧ (∀ e ∈ events, e.ran? r = none) ∧
        Account model r (w.runner r).cursor (w.runner r).recording events (w'.runner r)

theorem composes_told (model : Model (code S)) (r : RunnerId S) : Composes (Told model r) where
  refl w h := by
    refine ⟨h, rfl, [], rfl, fun _ he => absurd he List.not_mem_nil, ?_⟩
    exact (Apart.refl _).lull.account
  trans := by
    intro w₁ w₂ w₃ h₁₂ h₂₃ hengaged
    obtain ⟨hengaged, hmodel, old, hold, hran, haccount⟩ := h₁₂ hengaged
    obtain ⟨hengaged, hmodel', new, hnew, hran', haccount'⟩ := h₂₃ hengaged
    refine ⟨hengaged, hmodel'.trans hmodel, new ++ old, ?_, ?_, haccount.trans haccount'⟩
    · rw [hnew, hold, List.append_assoc]
    · exact fun e he => (List.mem_append.mp he).elim (hran' e) (hran e)

theorem Pause.told {w w' : World S} (h : Pause r [] w w') : Told model r w w' := by
  intro hengaged
  obtain ⟨events, hjournal, hlull⟩ := h hengaged.busy
  have hsession := hlull.session
  refine ⟨⟨?_, ?_⟩, hsession.model, events, hjournal, hlull.ran, hlull.account⟩
  · rw [hsession.activity]
    exact hengaged.busy
  · rw [hsession.working, hsession.cursor]
    exact hengaged.committed

theorem told_note {e : Event S} (hturn : e.turn? r = none) (htrigger : e.trigger? r = none)
    (hreaction : e.reaction? r = none) (hresolved : e.resolvedAt? r = none)
    (hran : e.ran? r = none) (hhear : ∀ model x, Recording.hear r model e x = x) :
    Effect.Within (Told model r) (Effect.note e) := by
  intro w
  have hpause := pause_note hturn hreaction hresolved hran hhear w
  rw [htrigger] at hpause
  exact hpause.told

/-- **One turn.** A step is triggered and reacts, is reached and recorded, has its effect, and the
cursor is committed. -/
theorem account_of_turn {t : Turn} {step : Step (code S)} {c : Cursor}
    {before after : List (Event S)} (state : S.State) {x x₁ x₂ : Runner S}
    (hstep : model.step? t.step = some step)
    (hbefore : Lull r [(t.step, t.message)] before x x₁)
    (hafter : Lull r [] after
      { x₁ with
        working := x₁.working.reached step
        recording := x₁.recording.record step.name t.message.type } x₂)
    (hc : c = x.cursor.after model t) (hheard : t.Heard model x.cursor) :
    Account model r x.cursor x.recording
      (.moved r t :: (after ++ .reacted r t.step t.message t.output state :: before))
      { x₂ with working := c, cursor := c } := by
  -- Before the reaction and after it nothing is noted that counts, but the one trigger.
  have hturns : turns r
      (.moved r t :: (after ++ .reacted r t.step t.message t.output state :: before)) = [t] := by
    have hold := hbefore.turns
    have hnew := hafter.turns
    unfold turns at hold hnew ⊢
    rw [readOff_cons, readOff_append, readOff_cons, hold, hnew]
    simp [Event.turn?]
  refine ⟨?_, ?_, resolvedIn_of_none ?_, ?_, ?_, ?_⟩
  · rw [hturns, hc]
    rfl
  · rw [hturns]
    exact ⟨hheard, trivial⟩
  · intro e he
    simp only [List.mem_cons, List.mem_append] at he
    rcases he with rfl | he | rfl | he
    · rfl
    · exact hafter.resolved e he
    · rfl
    · exact hbefore.resolved e he
  · have hold := hbefore.triggers
    have hnew := hafter.triggers
    rw [hturns]
    unfold triggers at hold hnew ⊢
    rw [readOff_cons, readOff_append, readOff_cons, hold, hnew]
    rfl
  · have hold := hbefore.reactions
    have hnew := hafter.reactions
    rw [hturns]
    unfold reactions at hold hnew ⊢
    rw [readOff_cons, readOff_append, readOff_cons, hold, hnew]
    simp [Event.reaction?]
  · have hreacted : (x.recording.replay r model before).hear r model
        (.reacted r t.step t.message t.output state) =
          x₁.recording.record step.name t.message.type := by
      rw [← hbefore.recording model]
      simp [Recording.hear, hstep]
    rw [Recording.replay_cons, Recording.replay_append, Recording.replay_cons, hreacted]
    exact hafter.recording model

/-- A step was triggered and reacted, and then it was reached and recorded. -/
def Reacts (r : RunnerId S) (step : Step (code S)) (m : Message) (output : Output)
    (w w₂ : World S) : Prop :=
  ∃ w₁, Pause r [(step.id, m)] w w₁ ∧
    w₂.journal = .reacted r step.id m output w₂.state :: w₁.journal ∧
    w₂.runner r = { w₁.runner r with
      working := (w₁.runner r).working.reached step
      recording := (w₁.runner r).recording.record step.name m.type }

section Reacts

variable {step : Step (code S)} {m : Message} {output : Output} {w w₂ : World S}
  (hreacts : Reacts r step m output w w₂) (hengaged : Engaged (w.runner r))
include hreacts hengaged

theorem Reacts.working : (w₂.runner r).working = (w.runner r).cursor.reached step := by
  obtain ⟨w₁, hpause, -, hreached⟩ := hreacts
  obtain ⟨_, _, hlull⟩ := hpause hengaged.busy
  rw [hreached, ← hengaged.committed, ← hlull.session.working]

/-- Once whatever its effect asked for is done and the cursor is committed, the step took its
turn. -/
theorem Reacts.took {answers : List Bool} {c : Cursor} {w₃ w' : World S}
    (hstep : model.step? step.id = some step) (hafter : Undisturbed r w₂ w₃)
    (hcommitted : w'.runner r = { w₃.runner r with working := c, cursor := c })
    (hmoved : w'.journal = .moved r ⟨step.id, m, output, answers⟩ :: w₃.journal)
    (hc : c = (w.runner r).cursor.after model ⟨step.id, m, output, answers⟩)
    (hheard : Turn.Heard model (w.runner r).cursor ⟨step.id, m, output, answers⟩) :
    Told model r w w' := by
  intro _
  obtain ⟨w₁, hpause, hreacted, hreached⟩ := hreacts
  obtain ⟨before, hjournal, hlull⟩ := hpause hengaged.busy
  have hactivity : (w₂.runner r).activity = (w.runner r).activity := by
    rw [hreached]
    exact hlull.session.activity
  obtain ⟨after, hjournal', hapart⟩ := hafter (hactivity ▸ hengaged.busy)
  have haccount := account_of_turn w₂.state hstep hlull (hreached ▸ hapart.lull) hc hheard
  refine ⟨⟨?_, ?_⟩, ?_, _, ?_, ?_, hcommitted ▸ haccount⟩
  · rw [hcommitted]
    change (w₃.runner r).activity ≠ .idle
    rw [hapart.session.activity, hactivity]
    exact hengaged.busy
  · rw [hcommitted]
  · rw [hcommitted]
    change (w₃.runner r).model = _
    rw [hapart.session.model, hreached]
    exact hlull.session.model
  · rw [hmoved, hjournal', hreacted, hjournal]
    simp
  · intro e he
    simp only [List.mem_cons, List.mem_append] at he
    rcases he with rfl | he | rfl | he
    · rfl
    · exact hapart.ran e he
    · rfl
    · exact hlull.ran e he

end Reacts

end Account

/-! ## Sessions -/

section Session

variable (app : Application S) {calls : Calls S} (s : Session S)
  (hperform : ∀ q, Effect.Within (Undisturbed s.runner) (perform app calls q))
include hperform

theorem perform_told (q : Request S) :
    Effect.Within (Told s.model s.runner) (perform app calls q) :=
  fun w => (hperform q w).pause.told

omit hperform in
/-- A step is resolved at the cursor that is committed. -/
theorem resolved_told (step : StepId) (scope : Scope) (actor : String) (state : S.State)
    {w w' : World S} (h : Undisturbed s.runner w w') :
    Told s.model s.runner w
      (w'.note (.resolved s.runner step scope (w.runner s.runner).working actor state)) := by
  intro hengaged
  obtain ⟨events, hjournal, hapart⟩ := h hengaged.busy
  have htold : Told s.model s.runner w w' := h.pause.told
  obtain ⟨hengaged', hmodel, -⟩ := htold hengaged
  have haccount : Account s.model s.runner (w.runner s.runner).cursor _ events _ :=
    hapart.lull.account
  refine ⟨hengaged', hmodel, .resolved s.runner step scope _ actor state :: events,
    congrArg _ hjournal, ?_, haccount.cursor, haccount.heard, ⟨fun c hc => ?_, haccount.resolved⟩,
    haccount.triggers, haccount.reactions, haccount.recording⟩
  · exact fun e he => (List.mem_cons.mp he).elim (fun h => h ▸ rfl) (hapart.ran e)
  · have hworking : (w.runner s.runner).working = c := by
      simpa [Event.resolvedAt?] using hc
    rw [hapart.turns, ← hworking, hengaged.committed]
    rfl

theorem resolve_told (type : MessageType) (scope : Scope) :
    Attempt.Within (Told s.model s.runner) (s.resolve app calls type scope) := by
  intro w
  unfold Session.resolve
  rw [Attempt.run_lift_bind, Attempt.run_lift_bind, Attempt.run_bind]
  have hresolution := (composes_undisturbed s.runner).sequential.resolution app calls hperform
    s.model (w.runner s.runner).working (w.runner s.runner).actor type scope w
  dsimp only [Effect.runner, Effect.state]
  generalize (UseCaseEngine.resolve (evalGuard app calls) s.model (w.runner s.runner).working
    (w.runner s.runner).actor type scope).run w = result at hresolution ⊢
  obtain ⟨found, w'⟩ := result
  rcases found with e | _ | step
  · exact hresolution.pause.told
  · exact hresolution.pause.told
  · exact resolved_told s step.id scope _ _ hresolution

theorem publish_told (m : Message) :
    Effect.Within (Told s.model s.runner) (s.publish app calls m) := by
  have hR := composes_told s.model s.runner
  unfold Session.publish
  refine hR.look s.runner fun w => ?_
  split
  · exact Effect.within_pure hR _
  · refine (told_note rfl rfl rfl rfl rfl fun _ _ => rfl).bind hR fun w => ?_
    exact hR.sequential.exec app calls (perform_told app s hperform) _

theorem deliver_told (step : Step (code S)) (message : Option Message) :
    Attempt.Within (Told s.model s.runner) (s.deliver app calls step message) := by
  have hR := composes_told s.model s.runner
  unfold Session.deliver
  split
  · exact Attempt.within_pure hR _
  · split
    · exact Attempt.within_pure hR _
    · split
      · exact Attempt.within_pure hR _
      · refine (Attempt.within_lift ?_).bind hR fun w _ _ => ?_
        · exact told_note rfl rfl rfl rfl rfl fun _ _ => rfl
        refine Attempt.Within.bind hR ?_ fun w _ _ => Attempt.within_pure hR _
        exact hR.sequential.exec app calls (perform_told app s hperform) _

omit hperform in
theorem started_told (step : Step (code S)) :
    Effect.Within (Told s.model s.runner)
      (Effect.modifyRunner s.runner fun x => { x with activity := .reacting step.name }) := by
  intro w hengaged
  rw [runner_modifyRunner_self]
  refine ⟨⟨nofun, hengaged.committed⟩, rfl, [], rfl, fun _ he => absurd he List.not_mem_nil, ?_⟩
  exact ⟨rfl, trivial, resolvedIn_of_none (by simp [Event.resolvedAt?]), rfl, rfl, rfl⟩

/-- The effect of a step takes place where the call stands, and moves the call's cursor as the
answers that it gives tell. -/
theorem applyReaction_spec (step : Step (code S)) (w : World S) :
    ∃ answers applied c w₁,
      (w.runner s.runner).working.apply (evalGuard app calls) s.model step w =
        ((c, applied), w₁) ∧
      s.applyReaction app calls step w = ((applied, answers),
        (Effect.modifyRunner s.runner (fun x => { x with working := c }) w₁).2) ∧
      Undisturbed s.runner w w₁ ∧
      (w.runner s.runner).working.apply told s.model step answers = ((c, applied), []) := by
  have hR := composes_undisturbed s.runner
  obtain ⟨answers, hrun, htold⟩ := exists_heard_apply (evalGuard app calls) s.model
    (w.runner s.runner).working step w
  have hw := hR.sequential.apply app calls hperform s.model (w.runner s.runner).working step w
  rw [StateT.run, hrun] at hw
  refine ⟨answers, _, _, _, rfl, ?_, hw, htold⟩
  unfold Session.applyReaction
  rw [Effect.run_bind, Effect.run_bind]
  dsimp only [Effect.runner, StateT.run]
  rw [hrun]
  rfl

omit hperform in
theorem runner_commit (t : Turn) (w : World S) :
    ((s.commit t w).2).runner s.runner =
      { w.runner s.runner with cursor := (w.runner s.runner).working } := by
  change (Effect.modifyRunner s.runner (fun x => { x with cursor := x.working }) w).2.runner
    s.runner = _
  rw [runner_modifyRunner_self]

omit hperform in
/-- A step that failed took its turn once the cursor is committed. -/
theorem failed_told {step : Step (code S)} (hstep : s.model.step? step.id = some step)
    {m : Message} {failure : Failure} {w w₂ : World S} (hengaged : Engaged (w.runner s.runner))
    (hreacts : Reacts s.runner step m (.error failure) w w₂) :
    Told s.model s.runner w (s.commit ⟨step.id, m, .error failure, []⟩ w₂).2 := by
  refine hreacts.took hengaged hstep ((composes_undisturbed s.runner).refl w₂)
    (runner_commit s _ w₂) rfl ?_ ⟨step, hstep, rfl⟩
  rw [after_of_failure hstep rfl, hreacts.working hengaged]

/-- A step that did not fail has its effect and took its turn, whatever comes of delivering what it
published. -/
theorem applied_told {step : Step (code S)} (hstep : s.model.step? step.id = some step)
    {m : Message} {message : Option Message} {w w₂ : World S}
    (hengaged : Engaged (w.runner s.runner))
    (hreacts : Reacts s.runner step m (.ok message) w w₂) :
    Told s.model s.runner w ((do
      let (applied, answers) ← s.applyReaction app calls step
      s.commit ⟨step.id, m, .ok message, answers⟩
      match applied with
      | .error e => throw e
      | .ok () => return Reacted.published (← s.deliver app calls step message) :
        Attempt S Reacted).run w₂).2 := by
  have hR := composes_told s.model s.runner
  obtain ⟨answers, applied, c, w₃, -, happly, hafter, htold⟩ :=
    applyReaction_spec app s hperform step w₂
  rw [hreacts.working hengaged] at htold
  rw [Attempt.run_lift_bind, happly]
  dsimp only
  rw [Attempt.run_lift_bind]
  generalize hw' : (s.commit ⟨step.id, m, .ok message, answers⟩
    (Effect.modifyRunner s.runner (fun x => { x with working := c }) w₃).2).2 = w'
  have hcommitted : w'.runner s.runner = { w₃.runner s.runner with working := c, cursor := c } := by
    rw [← hw', runner_commit, runner_modifyRunner_self]
  have hmoved : w'.journal = .moved s.runner ⟨step.id, m, .ok message, answers⟩ :: w₃.journal := by
    rw [← hw']
    rfl
  have htook : Told s.model s.runner w w' :=
    hreacts.took hengaged hstep hafter hcommitted hmoved (by rw [after_of_apply hstep rfl, htold])
      ⟨step, hstep, by rw [htold]⟩
  cases applied with
  | error e => exact htook
  | ok _ =>
    have hdeliver : Attempt.Within (Told s.model s.runner) (do
        return Reacted.published (← s.deliver app calls step message)) :=
      (deliver_told app s hperform step message).bind hR fun w _ _ => Attempt.within_pure hR _
    exact hR.trans htook (hdeliver w')

/-- A step that is offered is suppressed, or it reacts and what follows from that is done. -/
theorem offer_reacts (step : Step (code S)) (m : Message) (w : World S) :
    ∃ w₀, w₀ = (Effect.modifyRunner s.runner
        (fun x => { x with activity := .reacting step.name }) w).2 ∧
      ((∃ w₁, Pause s.runner [] w₀ w₁ ∧
          (s.offer app calls step m).run w = (.ok .suppressed, w₁)) ∨
        ∃ output w₂, Reacts s.runner step m output w₀ w₂ ∧
          (s.offer app calls step m).run w = (s.follow app calls step m output).run w₂) := by
  rw [Session.offer_eq, Attempt.run_lift_bind]
  generalize (Effect.modifyRunner s.runner
    (fun x => { x with activity := .reacting step.name }) w).2 = w₀
  refine ⟨w₀, rfl, ?_⟩
  rw [Attempt.run_lift_bind]
  have haround := around_spec app s hperform step m w₀
  generalize s.around app calls step m w₀ = result at haround ⊢
  obtain ⟨_ | output, w₁⟩ := result
  · exact .inl ⟨w₁, haround, rfl⟩
  obtain ⟨w₁, hpause, rfl⟩ := haround
  rw [Session.conclude_some, Attempt.run_lift_bind]
  refine .inr ⟨output, _, ⟨w₁, hpause, rfl, ?_⟩, rfl⟩
  exact runner_modifyRunner_self _ _ _

/-- **A step that is offered** either is suppressed or takes its turn, whatever comes of it. -/
theorem offer_told {step : Step (code S)} (hstep : s.model.step? step.id = some step)
    (m : Message) : Attempt.Within (Told s.model s.runner) (s.offer app calls step m) := by
  intro w
  obtain ⟨w₀, hw₀, ⟨w₁, hpause, hoffer⟩ | ⟨output, w₂, hreacts, hoffer⟩⟩ :=
    offer_reacts app s hperform step m w
  all_goals
    refine (composes_told s.model s.runner).trans (hw₀ ▸ started_told s step w) ?_
    rw [hoffer]
  · exact hpause.told
  · intro hengaged
    cases output with
    | error failure => exact failed_told s hstep hengaged hreacts hengaged
    | ok message => exact applied_told app s hperform hstep hengaged hreacts hengaged

/-- **The parts of a session** only do to its runner what their events tell. -/
theorem parts_told (hplaced : s.model.Placed) :
    s.Parts app calls (Effect.Within (Told s.model s.runner)) where
  resolve := resolve_told app s hperform
  offer _ hstep := offer_told app s hperform (hplaced.step?_self hstep)
  publish := publish_told app s hperform

end Session

/-! ## Calls -/

/-- The models of the application are built. -/
def Application.Built (app : Application S) : Prop := ∀ name, (app.model name).Built

namespace Call

/-- The model that a call on the runner runs. -/
def model? (x : Runner S) : Call S → Option S.ModelName
  | .react _ => x.model
  | .run model => some model

/-- The cursor that a call on the runner starts from. -/
def start (x : Runner S) : Call S → Cursor
  | .react _ => x.cursor
  | .run _ => {}

/-- What a call that was admitted notes before it lets any step react. -/
def opening (r : RunnerId S) : Call S → List (Event S)
  | .react _ => []
  | .run model => [.ran r model]

end Call

/-- What a call did to its runner, after it was opened, amounts to the turns of its steps in the
model that it runs. -/
def Serves (app : Application S) (r : RunnerId S) (c : Call S) (opening : List (Event S))
    (w w' : World S) : Prop :=
  (w'.runner r).model = c.model? (w.runner r) ∧
    ∃ events, w'.journal = events ++ (opening ++ w.journal) ∧ (∀ e ∈ events, e.ran? r = none) ∧
      ∀ model, (∀ name, c.model? (w.runner r) = some name → model = app.model name) →
        Account model r (c.start (w.runner r)) (w.runner r).recording events (w'.runner r)

section Serve

variable {app : Application S} {r : RunnerId S}

/-- The world once a call on the runner was entered. -/
def World.entered (w : World S) (r : RunnerId S) : World S :=
  (w.note (.entered r)).setRunner r { w.runner r with activity := .resolving }

/-- The world once the call was left. -/
def World.left (w : World S) (r : RunnerId S) : World S :=
  (w.setRunner r { w.runner r with activity := .idle }).note (.left r)

theorem World.runner_entered (w : World S) (r : RunnerId S) :
    (w.entered r).runner r = { w.runner r with activity := .resolving } :=
  World.runner_setRunner_self _ r _

theorem World.runner_left (w : World S) (r : RunnerId S) :
    (w.left r).runner r = { w.runner r with activity := .idle } :=
  World.runner_setRunner_self w r _

theorem World.entered_busy (w : World S) (r : RunnerId S) :
    ((w.entered r).runner r).activity ≠ .idle := by
  rw [World.runner_entered]
  exact nofun

/-- A call is served between entering and leaving it. -/
theorem occupy_eq (app : Application S) (calls : Calls S) (c : Call S) (w : World S) :
    occupy app calls r c w = (((serve app calls r c).run (w.entered r)).1,
      ((serve app calls r c).run (w.entered r)).2.left r) := rfl

/-- The world once the runner was put at the start of a model. -/
def World.started (w : World S) (r : RunnerId S) (name : S.ModelName) : World S :=
  (w.setRunner r { w.runner r with model := some name, cursor := {}, running := true }).note
    (.ran r name)

theorem World.runner_started (w : World S) (r : RunnerId S) (name : S.ModelName) :
    (w.started r name).runner r =
      { w.runner r with model := some name, cursor := {}, running := true } :=
  World.runner_setRunner_self w r _

/-- A run goes on from the start of its model. -/
theorem runModel_eq (app : Application S) (calls : Calls S) (name : S.ModelName) (w : World S) :
    (runModel app calls r name).run w =
      (liftM (openSession app r name) >>= fun s => s.begin app calls : Attempt S _).run
        (recordFromStart r (w.started r name)).2 := rfl

/-- What a call notes begins with what it notes before it lets any step react. -/
theorem serve_journal (app : Application S) {calls : Calls S}
    (hgrows : ∀ r c, Effect.Within Grows (calls r c)) (c : Call S) (w : World S) :
    ∃ events, ((serve app calls r c).run w).2.journal = events ++ (c.opening r ++ w.journal) := by
  have hprimitives := primitives_grows app hgrows r
  have hR := composes_grows.sequential (S := S)
  cases c with
  | react m =>
    obtain ⟨events, hevents⟩ := (hprimitives.parts hR).reactTo hR m w
    exact ⟨events, hevents.symm⟩
  | run name =>
    change ∃ events, ((runModel app calls r name).run w).2.journal = _
    rw [runModel_eq]
    have hrecord := hR.recordFromStart app calls hprimitives.perform r (w.started r name)
    obtain ⟨events, hevents⟩ := hrecord.trans ((hprimitives.parts hR).begin hR name _)
    exact ⟨events, hevents.symm⟩

/-- What a call notes stands between the notes that it was entered and left. -/
theorem occupy_journal (app : Application S) {calls : Calls S}
    (hgrows : ∀ r c, Effect.Within Grows (calls r c)) (c : Call S) (w : World S) :
    ∃ events, (occupy app calls r c w).2.journal =
      .left r :: (events ++ (c.opening r ++ .entered r :: w.journal)) := by
  obtain ⟨events, hevents⟩ := serve_journal app hgrows c (w.entered r)
  exact ⟨events, congrArg (Event.left r :: ·) hevents⟩

/-- A session starts from the runner's cursor. -/
theorem exists_openSession (app : Application S) (w : World S) (name : S.ModelName) :
    ∃ s w₁, openSession app r name w = (s, w₁) ∧ s.runner = r ∧ s.model = app.model name ∧
      w₁.journal = w.journal ∧
      w₁.runner r = { w.runner r with working := (w.runner r).cursor } := by
  refine ⟨_, _, rfl, rfl, rfl, rfl, ?_⟩
  change (Effect.modifyRunner r (fun x => { x with working := x.cursor }) w).2.runner r = _
  rw [runner_modifyRunner_self]

/-- A runner reacts only if it is running and has a model. -/
theorem Runner.inactive_or (x : Runner S) :
    (x.running = false ∨ x.model = none) ∨ (x.running = true ∧ ∃ name, x.model = some name) := by
  cases x.running <;> cases x.model <;> simp

theorem reactTo_of_inactive {calls : Calls S} {w : World S}
    (h : (w.runner r).running = false ∨ (w.runner r).model = none) (m : Message) :
    (reactTo app calls r m).run w = (.ok none, w) := by
  unfold reactTo
  rw [Attempt.run_lift_bind]
  dsimp only [Effect.runner]
  rcases h with h | h
  · rw [h]
    rfl
  · rw [h]
    cases (w.runner r).running <;> rfl

theorem reactTo_of_running {calls : Calls S} {w : World S} (hrunning : (w.runner r).running = true)
    {name : S.ModelName} (hmodel : (w.runner r).model = some name) (m : Message) :
    (reactTo app calls r m).run w =
      (liftM (openSession app r name) >>= fun s => s.react app calls m : Attempt S _).run w := by
  unfold reactTo
  rw [Attempt.run_lift_bind]
  dsimp only [Effect.runner]
  rw [hrunning, hmodel]

/-- A call on a running runner is served by a session that reacts. -/
theorem serve_of_running {calls : Calls S} {w v : World S} (hrunning : (w.runner r).running = true)
    {name : S.ModelName} (hmodel : (w.runner r).model = some name) {s : Session S}
    (hopen : openSession app r name (w.entered r) = (s, v)) (m : Message) :
    (serve app calls r (.react m)).run (w.entered r) = (s.react app calls m).run v := by
  change (reactTo app calls r m).run (w.entered r) = _
  rw [reactTo_of_running (by rw [World.runner_entered]; exact hrunning)
    (by rw [World.runner_entered]; exact hmodel), Attempt.run_lift_bind, hopen]

/-- What a session tells is told of the call that opens it. -/
theorem Told.of_open {model : Model (code S)} {w w₁ w' : World S}
    (hbusy : (w.runner r).activity ≠ .idle) (hjournal : w₁.journal = w.journal)
    (hrunner : w₁.runner r = { w.runner r with working := (w.runner r).cursor })
    (h : Told model r w₁ w') :
    (w'.runner r).model = (w.runner r).model ∧
      ∃ events, w'.journal = events ++ w.journal ∧ (∀ e ∈ events, e.ran? r = none) ∧
        Account model r (w.runner r).cursor (w.runner r).recording events (w'.runner r) := by
  obtain ⟨-, hmodel, events, hevents, hran, haccount⟩ := h (hrunner ▸ ⟨hbusy, rfl⟩)
  rw [hrunner] at hmodel haccount
  exact ⟨hmodel, events, hjournal ▸ hevents, hran, haccount⟩

/-- Entering a call and leaving it adds nothing to what it did. -/
theorem Serves.occupied {c : Call S} {w w₁ w₂ w₃ : World S}
    (h : Serves app r c (c.opening r) w₁ w₂)
    (hentered : w₁.runner r = { w.runner r with activity := .resolving })
    (hjournal : w₁.journal = .entered r :: w.journal)
    (hleft : w₃.runner r = { w₂.runner r with activity := .idle })
    (hjournal' : w₃.journal = .left r :: w₂.journal) :
    Serves app r c (c.opening r ++ [.entered r]) w w₃ := by
  obtain ⟨hmodel, events, hevents, hran, haccount⟩ := h
  rw [hentered] at hmodel haccount
  refine ⟨?_, .left r :: events, ?_, ?_, fun model hname => ?_⟩
  · rw [hleft]
    exact hmodel
  · rw [hjournal', hevents, hjournal]
    simp
  · exact fun e he => (List.mem_cons.mp he).elim (fun h => h ▸ rfl) (hran e)
  · have hlast : Account model r (w₂.runner r).cursor (w₂.runner r).recording [.left r]
        (w₃.runner r) := by
      rw [hleft]
      exact ⟨rfl, trivial, resolvedIn_of_none (by simp [Event.resolvedAt?]), rfl, rfl, rfl⟩
    exact (haccount model hname).trans hlast

variable (hbuilt : app.Built) {calls : Calls S}
  (hperform : ∀ q, Effect.Within (Undisturbed r) (perform app calls q))
include hbuilt hperform

theorem reactTo_serves {w : World S} (hbusy : (w.runner r).activity ≠ .idle) (m : Message) :
    Serves app r (.react m) [] w ((reactTo app calls r m).run w).2 := by
  rcases (w.runner r).inactive_or with hinactive | ⟨hrunning, name, hbound⟩
  · rw [reactTo_of_inactive hinactive]
    exact ⟨rfl, [], rfl, fun _ he => absurd he List.not_mem_nil, fun model _ =>
      (Apart.refl _).lull.account⟩
  · obtain ⟨s, w₁, hopen, hs, hmodel, hjournal, hrunner⟩ := exists_openSession app w name
    rw [reactTo_of_running hrunning hbound, Attempt.run_lift_bind, hopen]
    subst hs
    have hparts := parts_told app s hperform (hmodel ▸ placed_of_build (hbuilt name))
    have htold := hparts.react (composes_told _ _).sequential m w₁
    obtain ⟨hsame, events, hevents, hran, haccount⟩ := htold.of_open hbusy hjournal hrunner
    refine ⟨hsame, events, hevents, hran, fun model hname => ?_⟩
    rw [hname name hbound, ← hmodel]
    exact haccount

theorem runModel_serves {w : World S} (hbusy : (w.runner r).activity ≠ .idle)
    (name : S.ModelName) :
    Serves app r (.run name) [.ran r name] w ((runModel app calls r name).run w).2 := by
  rw [runModel_eq]
  have hstarted : ((w.started r name).runner r).activity ≠ .idle := by
    rw [World.runner_started]
    exact hbusy
  have hrecording := (composes_undisturbed r).sequential.recordFromStart app calls hperform r
    (w.started r name)
  generalize (recordFromStart r (w.started r name)).2 = w₂ at hrecording ⊢
  obtain ⟨old, hold, hapart⟩ := hrecording hstarted
  have hbusy' : (w₂.runner r).activity ≠ .idle := by
    rw [hapart.session.activity]
    exact hstarted
  obtain ⟨s, w₃, hopen, hs, hmodel, hjournal, hrunner⟩ := exists_openSession app w₂ name
  rw [Attempt.run_lift_bind, hopen]
  subst hs
  have hparts := parts_told app s hperform (hmodel ▸ placed_of_build (hbuilt name))
  obtain ⟨hsame, new, hnew, hran, haccount⟩ :=
    Told.of_open hbusy' hjournal hrunner (hparts.begin (composes_told _ _).sequential w₃)
  refine ⟨?_, new ++ old, ?_, ?_, fun model hname => ?_⟩
  · rw [hsame, hapart.session.model, World.runner_started]
    rfl
  · rw [hnew, hold, List.append_assoc]
    rfl
  · exact fun e he => (List.mem_append.mp he).elim (hran e) (hapart.ran e)
  · have hwhole := hapart.lull.account.trans haccount
    rw [World.runner_started] at hwhole
    rw [hname name rfl, ← hmodel]
    exact hwhole

theorem occupy_serves (c : Call S) (w : World S) :
    ((occupy app calls r c w).2.runner r).activity = .idle ∧
      Serves app r c (c.opening r ++ [.entered r]) w (occupy app calls r c w).2 := by
  rw [occupy_eq]
  have hserve : Serves app r c (c.opening r) (w.entered r)
      ((serve app calls r c).run (w.entered r)).2 := by
    cases c with
    | react m => exact reactTo_serves hbuilt hperform (w.entered_busy r) m
    | run name => exact runModel_serves hbuilt hperform (w.entered_busy r) name
  generalize ((serve app calls r c).run (w.entered r)).2 = w₂ at hserve ⊢
  have hleft := w₂.runner_left r
  refine ⟨?_, hserve.occupied (w.runner_entered r) rfl hleft rfl⟩
  exact congrArg Runner.activity hleft

end Serve

theorem callWithin_of_idle (app : Application S) (depth : Nat) (r : RunnerId S) (c : Call S)
    {w : World S} (h : (w.runner r).activity = .idle) :
    callWithin app (depth + 1) r c w = occupy app (callWithin app depth) r c w := by
  rw [callWithin]
  dsimp only
  rw [Effect.run_bind]
  dsimp only [Effect.runner]
  rw [h]

/-- A call is refused, or its runner is in no call and calls may nest. -/
theorem refused_or_admitted (app : Application S) (depth : Nat) (r : RunnerId S) (c : Call S)
    (w : World S) :
    (∃ label, callWithin app depth r c w =
      (.error (.nestedCall label), w.note (.refused r label))) ∨
        ((w.runner r).activity = .idle ∧ ∃ d, depth = d + 1) := by
  cases depth with
  | zero => exact .inl ⟨_, rfl⟩
  | succ d =>
    by_cases hidle : (w.runner r).activity = .idle
    · exact .inr ⟨hidle, d, rfl⟩
    · exact .inl ⟨_, callWithin_of_busy app (d + 1) r c w hidle⟩

/-- **What a call amounts to.** A call on a runner that is not in one is admitted. However it ends
and whatever it gives, it leaves the runner with the model that it ran, where the turns of its steps
lead, and not in a call. -/
theorem callWithin_serves {app : Application S} (hbuilt : app.Built) (depth : Nat) (r : RunnerId S)
    (c : Call S) {w : World S} (hidle : (w.runner r).activity = .idle) :
    ((callWithin app (depth + 1) r c w).2.runner r).activity = .idle ∧
      Serves app r c (c.opening r ++ [.entered r]) w (callWithin app (depth + 1) r c w).2 := by
  rw [callWithin_of_idle app depth r c hidle]
  exact occupy_serves hbuilt (perform_undisturbed app r depth) c w

end UseCaseEngine
