import UseCaseEngine.Proofs.Afresh
import UseCaseEngine.Proofs.Routing

/-!
# From station to station

Where it is known what the guards of a model answer and what its steps do, a call can be followed
from one step to the next. Between two steps it has come to a station: its runner stands at a cursor
that is committed, the state is what the steps made of it, and so many of them were triggered. The
runner is left alone otherwise, but for what it is doing and for what it records.

This is said for steps that react unhindered and publish nothing.

* `Session.Finds`: the steps that a session finds at a station.
* `offer_of_leads`, `offer_of_fails`: a step leads from one station to another, or it fails.
* `Session.Carries`, `Session.Legs`: executing a step, and some system steps in turn.
* `react_of_legs`, `begin_of_settled`: so a session gets from its first station to its last one.
* **`rests_of_react`**, **`rests_of_run`**: and so does the call, and then its runner rests there.
-/

namespace UseCaseEngine

variable {S : Signature}

/-- How far a call has come: where its runner stands, what the state is, and which steps of the
runner were triggered so far. -/
structure Station (S : Signature) where
  cursor : Cursor
  state : S.State
  triggered : List (StepId × Message)

/-- A call on the runner has come to the station. All else about the runner is as it was, but for
its log and what it is doing. -/
structure Stationed (r : RunnerId S) (x : Runner S) (p : Station S) (v : World S) : Prop where
  runner : ∃ activity recording,
    v.runner r = { x with cursor := p.cursor, working := p.cursor, activity, recording }
  state : v.state = p.state
  triggered : triggers r v.journal = p.triggered

namespace Stationed

variable {r : RunnerId S} {x : Runner S} {p : Station S} {v : World S} (h : Stationed r x p v)
include h

theorem working : (v.runner r).working = p.cursor := by
  obtain ⟨activity, recording, hrunner⟩ := h.runner
  rw [hrunner]

theorem actor : (v.runner r).actor = x.actor := by
  obtain ⟨activity, recording, hrunner⟩ := h.runner
  rw [hrunner]

/-- Nothing but triggering a step is told of a station. -/
theorem note {e : Event S} (he : e.trigger? r = none) : Stationed r x p (v.note e) where
  runner := h.runner
  state := h.state
  triggered := (triggers_cons_of_none r he v.journal).trans h.triggered

end Stationed

/-! ## Sessions -/

section Session

variable (app : Application S) (calls : Calls S) (s : Session S) (x : Runner S)

/-- At the station, these steps can take a message of the type. -/
def Session.Finds (p : Station S) (type : MessageType) (scope : Scope)
    (left : List (Step (code S))) : Prop :=
  ∀ v, Stationed s.runner x p v →
    (candidates (evalGuard app calls) s.model p.cursor x.actor type scope).run v = (.ok left, v)

/-- Triggered at the station, the step comes to an output and changes nothing but the state. -/
def Session.Yields (step : Step (code S)) (m : Message) (p : Station S) (output : Output)
    (σ : S.State) : Prop :=
  ∀ v, v.state = p.state →
    Session.execReaction app calls step m v = (output, { v with state := σ })

/-- The step leads from one station to another and publishes nothing. -/
structure Session.Leads (step : Step (code S)) (m : Message) (p q : Station S) : Prop where
  yields : Session.Yields app calls step m p (.ok none) q.state
  move : ∀ v, v.state = q.state → ∃ answers,
    (Cursor.apply (heard (evalGuard app calls)) s.model (p.cursor.reached step) step).run [] v =
      (((q.cursor, .ok ()), answers), v)
  triggered : q.triggered = p.triggered ++ [(step.id, m)]

/-- The station where a step stands that failed. -/
def Station.failed (p : Station S) (step : Step (code S)) (m : Message) (σ : S.State) :
    Station S :=
  ⟨p.cursor.reached step, σ, p.triggered ++ [(step.id, m)]⟩

/-- Executing the step brings the call from one station to another and leaves nothing to publish. -/
def Session.Carries (step : Step (code S)) (m : Message) (p q : Station S) : Prop :=
  ∀ v, Stationed s.runner x p v → ∃ v',
    (s.execute app calls step m).run v = (.ok (some none), v') ∧ Stationed s.runner x q v'

/-- So many system steps bring the call from one station to another. -/
inductive Session.Legs : Nat → Station S → Station S → Prop where
  | refl (p : Station S) : Legs 0 p p
  | next {k : Nat} {step : Step (code S)} {p q p' : Station S}
      (hfinds : s.Finds app calls x p .systemEvent .normal [step])
      (hcarries : s.Carries app calls x step .systemEvent p q) (hrest : Legs k q p') :
      Legs (k + 1) p p'

variable {app calls s x} {p q : Station S} {type : MessageType} {scope : Scope} {m : Message}
  {step : Step (code S)} {v : World S}

/-- Where no step can take a message, none is resolved. -/
theorem resolve_of_finds_nil (h : s.Finds app calls x p type scope [])
    (hv : Stationed s.runner x p v) :
    (s.resolve app calls type scope).run v = (.ok none, v) := by
  rw [resolve_of_candidates, hv.working, hv.actor, h v hv]

/-- A single one is resolved. -/
theorem exists_resolve_of_finds (h : s.Finds app calls x p type scope [step])
    (hv : Stationed s.runner x p v) :
    ∃ v', (s.resolve app calls type scope).run v = (.ok (some step), v') ∧
      Stationed s.runner x p v' := by
  refine ⟨v.note (.resolved s.runner step.id scope p.cursor x.actor v.state), ?_, hv.note rfl⟩
  rw [resolve_of_candidates, hv.working, hv.actor, h v hv]

variable (hhook : s.hook = Hook.callThrough)
include hhook

/-- What the hook makes of a step that reacts unhindered is what comes of the step. -/
theorem exists_hooked (step : Step (code S)) (m : Message) {output : Output} {σ : S.State}
    (hv : Stationed s.runner x p v) (h : Session.Yields app calls step m p output σ) :
    ∃ v₁, s.hooked app calls step m (s.start step m v).2 = (some output, v₁) ∧
      v₁.state = σ ∧ triggers s.runner v₁.journal = triggers s.runner v.journal ++ [(step.id, m)] ∧
      v₁.runner s.runner = { v.runner s.runner with activity := .reacting step.name } := by
  have hrunner : (s.start step m v).2.runner s.runner =
      { v.runner s.runner with activity := .reacting step.name } :=
    runner_modifyRunner_self s.runner (fun x => { x with activity := .reacting step.name }) v
  rw [hooked_callThrough app calls hhook, Session.trigger_run,
    h (s.start step m v).2 hv.state]
  refine ⟨_, rfl, rfl, ?_, hrunner⟩
  have htriggered : (Event.triggered s.runner step.id m output).trigger? s.runner =
      some (step.id, m) := if_pos rfl
  refine (triggers_cons_of_none s.runner rfl _).trans ((readOff_cons _ _ _).trans ?_)
  rw [htriggered]
  exact congrArg (· ++ [(step.id, m)]) (triggers_cons_of_none s.runner rfl v.journal)

omit hhook in
/-- A step that was triggered is the latest one of the call once it is logged. -/
theorem exists_logged (hv : Stationed s.runner x p v) {v₁ : World S}
    (hrunner : v₁.runner s.runner =
      { v.runner s.runner with activity := .reacting step.name }) :
    ∃ activity recording, (s.log step m v₁).2.runner s.runner =
      { x with cursor := p.cursor, working := p.cursor.reached step, activity, recording } := by
  obtain ⟨activity, recording, hx⟩ := hv.runner
  have hlogged : (s.log step m v₁).2.runner s.runner = { v₁.runner s.runner with
      working := (v₁.runner s.runner).working.reached step
      recording := (v₁.runner s.runner).recording.record step.name m.type } :=
    runner_modifyRunner_self s.runner _ v₁
  rw [hrunner, hx] at hlogged
  exact ⟨_, _, hlogged⟩

omit hhook in
/-- Once the cursor is committed, the call has come to the next station. -/
theorem stationed_of_commit {cursor : Cursor}
    (hrunner : ∃ activity recording, v.runner s.runner =
      { x with cursor, working := p.cursor, activity, recording })
    (hstate : v.state = p.state) (htriggers : triggers s.runner v.journal = p.triggered)
    (turn : Turn) : Stationed s.runner x p (s.commit turn v).2 where
  runner := by
    obtain ⟨activity, recording, hrunner⟩ := hrunner
    refine ⟨activity, recording, ?_⟩
    rw [runner_commit, hrunner]
  state := hstate
  triggered := (triggers_cons_of_none s.runner rfl v.journal).trans htriggers

/-- **A step leads to the next station.** -/
theorem offer_of_leads (h : s.Leads app calls step m p q) (hv : Stationed s.runner x p v) :
    ∃ v', (s.offer app calls step m).run v = (.ok (.published none), v') ∧
      Stationed s.runner x q v' := by
  obtain ⟨v₁, hhooked, hstate, htriggers, hrunner⟩ := exists_hooked hhook step m hv h.yields
  obtain ⟨activity, recording, hlogged⟩ := exists_logged (m := m) hv hrunner
  obtain ⟨answers, hmove⟩ := h.move (s.log step m v₁).2 hstate
  have happly : s.applyReaction app calls step (s.log step m v₁).2 = ((.ok (), answers),
      (Effect.modifyRunner s.runner (fun x => { x with working := q.cursor })
        (s.log step m v₁).2).2) := by
    unfold Session.applyReaction
    rw [Effect.run_bind]
    dsimp only [Effect.runner]
    rw [hlogged, Effect.run_bind]
    exact congrArg (fun out => ((out.1.1.2, out.1.2), (Effect.modifyRunner s.runner
      (fun x => { x with working := out.1.1.1 }) out.2).2)) hmove
  have hoffer : (s.offer app calls step m).run v = (.ok (.published none),
      (s.commit ⟨step.id, m, .ok none, answers⟩ (s.applyReaction app calls step
        (s.log step m v₁).2).2).2) := by
    rw [offer_of_hooked app calls hhooked]
    unfold Session.follow
    dsimp only
    rw [Attempt.run_lift_bind, happly]
    rfl
  have hmoved : (s.applyReaction app calls step (s.log step m v₁).2).2.runner s.runner =
      { x with cursor := p.cursor, working := q.cursor, activity, recording } := by
    rw [happly, runner_modifyRunner_self, hlogged]
  have htriggered : triggers s.runner v₁.journal = q.triggered := by
    rw [htriggers, hv.triggered, h.triggered]
  refine ⟨_, hoffer, stationed_of_commit ⟨activity, recording, hmoved⟩ ?_ ?_ _⟩
  · rw [happly]
    exact hstate
  · rw [happly]
    exact htriggered

/-- **A step that fails** is the latest one. -/
theorem offer_of_fails {failure : Failure} {σ : S.State}
    (h : Session.Yields app calls step m p (.error failure) σ) (hv : Stationed s.runner x p v) :
    ∃ v', (s.offer app calls step m).run v = (.ok (.failed failure), v') ∧
      Stationed s.runner x (p.failed step m σ) v' := by
  obtain ⟨v₁, hhooked, hstate, htriggers, hrunner⟩ := exists_hooked hhook step m hv h
  refine ⟨_, offer_of_hooked app calls hhooked, ?_⟩
  refine stationed_of_commit (exists_logged hv hrunner) hstate ?_ _
  change triggers s.runner v₁.journal = p.triggered ++ [(step.id, m)]
  rw [htriggers, hv.triggered]

/-- A step that leads to a station is executed. -/
theorem carries_of_leads (h : s.Leads app calls step m p q) :
    s.Carries app calls x step m p q := by
  intro v hv
  obtain ⟨v', hoffer, hv'⟩ := offer_of_leads hhook h hv
  refine ⟨v', ?_, hv'⟩
  unfold Session.execute
  rw [Attempt.run_bind, hoffer]
  rfl

/-- **A step whose failure is handled** is executed too. -/
theorem carries_of_fails {failure : Failure} {σ : S.State} {handler : Step (code S)}
    (hplain : step.handlesFailure = false)
    (h : Session.Yields app calls step m p (.error failure) σ) {p₁ : Station S}
    (hfailed : p.failed step m σ = p₁)
    (hfinds : s.Finds app calls x p₁ failure.type .failure [handler])
    (hleads : s.Leads app calls handler failure.condition p₁ q) :
    s.Carries app calls x step m p q := by
  intro v hv
  obtain ⟨v₁, hoffer, hv₁⟩ := offer_of_fails hhook h hv
  rw [hfailed] at hv₁
  obtain ⟨v₂, hresolve, hv₂⟩ := exists_resolve_of_finds hfinds hv₁
  obtain ⟨v', hhandle, hv'⟩ := offer_of_leads hhook hleads hv₂
  have hhandled : (s.handleFailure app calls step failure).run v₁ = (.ok none, v') := by
    unfold Session.handleFailure
    rw [Attempt.run_bind, hresolve]
    dsimp only [ExceptT.bindCont]
    change ExceptT.run (s.offer app calls handler failure.condition >>= _) v₂ = _
    rw [Attempt.run_bind, hhandle]
    rfl
  refine ⟨v', ?_, hv'⟩
  rw [execute_of_failed hplain hoffer, hhandled]
  rfl

omit hhook in
/-- System steps that bring the call to a station are rounds of the session. -/
theorem Session.Legs.exists_rounds {k : Nat} (h : s.Legs app calls x k p q)
    (hv : Stationed s.runner x p v) :
    ∃ v', s.Rounds app calls k none v none v' ∧ Stationed s.runner x q v' := by
  induction h generalizing v with
  | refl p => exact ⟨v, .none _ v, hv⟩
  | next hfinds hcarries _ ih =>
    obtain ⟨v₁, hresolve, hv₁⟩ := exists_resolve_of_finds hfinds hv
    obtain ⟨v₂, hexecute, hv₂⟩ := hcarries v₁ hv₁
    obtain ⟨v', hrounds, hv'⟩ := ih hv₂
    exact ⟨v', .next hresolve hexecute hrounds, hv'⟩

omit hhook in
/-- **A session goes on** until no system step is found. -/
theorem continueWith_of_legs {k : Nat} (h : s.Legs app calls x k p q) (hk : k ≤ s.limit)
    (hsettled : s.Finds app calls x q .systemEvent .normal []) (hv : Stationed s.runner x p v) :
    ∃ v', (s.continueWith app calls s.limit none).run v = (.ok none, v') ∧
      Stationed s.runner x q v' := by
  obtain ⟨v', hrounds, hv'⟩ := h.exists_rounds hv
  have hsettles := continueWith_of_settled hrounds (resolve_of_finds_nil hsettled hv')
    (s.limit - k)
  rw [Nat.add_sub_cancel' hk] at hsettles
  exact ⟨v', hsettles, hv'⟩

omit hhook in
/-- **A session that reacts** comes to the last station. -/
theorem react_of_legs {k : Nat} (hfinds : s.Finds app calls x p m.type .normal [step])
    {p₁ : Station S} (hcarries : s.Carries app calls x step m p p₁)
    (h : s.Legs app calls x k p₁ q) (hk : k ≤ s.limit)
    (hsettled : s.Finds app calls x q .systemEvent .normal []) (hv : Stationed s.runner x p v) :
    ∃ v', (s.react app calls m).run v = (.ok none, v') ∧ Stationed s.runner x q v' := by
  obtain ⟨v₁, hresolve, hv₁⟩ := exists_resolve_of_finds hfinds hv
  obtain ⟨v₂, hexecute, hv₂⟩ := hcarries v₁ hv₁
  obtain ⟨v', hcontinue, hv'⟩ := continueWith_of_legs h hk hsettled hv₂
  refine ⟨v', ?_, hv'⟩
  rw [Session.react_eq_take, take_of_resolve hresolve, Attempt.run_bind, hexecute]
  exact hcontinue

omit hhook in
/-- A session that finds no step does not react. -/
theorem react_of_finds_nil (h : s.Finds app calls x p m.type .normal [])
    (hv : Stationed s.runner x p v) : (s.react app calls m).run v = (.ok none, v) := by
  rw [Session.react_eq_take]
  unfold Session.take
  rw [Attempt.run_bind, resolve_of_finds_nil h hv]
  rfl

omit hhook in
/-- A run that finds no system step comes to nothing. -/
theorem begin_of_settled (h : s.Finds app calls x p .systemEvent .normal [])
    (hv : Stationed s.runner x p v) :
    ∃ v', (s.begin app calls).run v = (.ok none, v') ∧ Stationed s.runner x p v' := by
  obtain ⟨v', hcontinue, hv'⟩ := continueWith_of_legs (.refl p) (Nat.zero_le _) h hv
  exact ⟨v', begin_of_continueWith hcontinue, hv'⟩

end Session

/-! ## Calls -/

section Call

/-- Between two calls the runner rests at the station. -/
structure Rests (r : RunnerId S) (x : Runner S) (p : Station S) (w : World S) : Prop
    extends Stationed r x p w where
  idle : (w.runner r).activity = .idle

variable (app : Application S) (depth : Nat) {r : RunnerId S} {x : Runner S} {p q : Station S}
  {m : Message} {w v : World S}

/-- Once a call is left, its runner rests where the call has come to. -/
theorem Stationed.rests (h : Stationed r x p v) : Rests r x p (v.left r) where
  runner := by
    obtain ⟨activity, recording, hrunner⟩ := h.runner
    refine ⟨.idle, recording, ?_⟩
    rw [World.runner_left, hrunner]
  state := h.state
  triggered := (triggers_cons_of_none r rfl v.journal).trans h.triggered
  idle := by rw [World.runner_left]

/-- **A call reacts** from where its runner rests to where its session comes to. -/
theorem rests_of_react (hw : Rests r x p w) (hrunning : x.running = true)
    {name : S.ModelName} (hmodel : x.model = some name)
    (h : ∀ v, Stationed r x p v → ∃ v',
      ((x.session app r name).react app (callWithin app depth) m).run v = (.ok none, v') ∧
        Stationed r x q v') :
    (callWithin app (depth + 1) r (.react m) w).1 = .ok none ∧
      Rests r x q (callWithin app (depth + 1) r (.react m) w).2 := by
  obtain ⟨activity, recording, hrunner⟩ := hw.runner
  have hsession : (w.runner r).session app r name = x.session app r name := by
    unfold Runner.session
    rw [hrunner]
  have hentered : Stationed r x p (w.inCall r .resolving (w.runner r).cursor [.entered r]) := by
    refine ⟨⟨.resolving, recording, ?_⟩, hw.state, ?_⟩
    · rw [World.runner_inCall, hrunner]
    · exact (triggers_cons_of_none r rfl w.journal).trans hw.triggered
  obtain ⟨v', hreact, hv'⟩ := h _ hentered
  rw [callWithin_react app depth m hw.idle (by rw [hrunner]; exact hrunning)
    (by rw [hrunner]; exact hmodel), hsession, hreact]
  exact ⟨rfl, hv'.rests⟩

/-- **A call runs a model** from its start to where its session comes to. -/
theorem rests_of_run (hidle : (w.runner r).activity = .idle) (name : S.ModelName)
    (h : ∀ v, Stationed r ((w.runner r).atStart name) ⟨{}, w.state, triggers r w.journal⟩ v →
      ∃ v', (((w.runner r).session app r name).begin app (callWithin app depth)).run v =
          (.ok none, v') ∧ Stationed r ((w.runner r).atStart name) p v') :
    (callWithin app (depth + 1) r (.run name) w).1 = .ok none ∧
      Rests r ((w.runner r).atStart name) p (callWithin app (depth + 1) r (.run name) w).2 := by
  have hbegun : Stationed r ((w.runner r).atStart name) ⟨{}, w.state, triggers r w.journal⟩
      (w.became r ((w.runner r).atStart name) ((w.runner r).opening r name)) := by
    refine ⟨⟨_, _, w.runner_became r _ _⟩, rfl, ?_⟩
    change readOff (Event.trigger? r) ((w.runner r).opening r name ++ w.journal) = _
    rw [readOff_append]
    unfold Runner.opening
    cases (w.runner r).settings.recordFromStart <;> exact List.append_nil _
  obtain ⟨v', hbegin, hv'⟩ := h _ hbegun
  rw [callWithin_run app depth hidle, hbegin]
  exact ⟨rfl, hv'.rests⟩

end Call

end UseCaseEngine
