import UseCaseEngine.Proofs.Rounds

/-!
# How failures are routed

A step that failed is the latest one and is recorded before anything else is done about its failure
(`route_exception`). Then the call looks for a step that handles failures of this type, wherever it
is in the model. The failure stays uncaught if there is none, or if the hook does not let it react,
and several are an error. The only one reacts like any step, but its own failure is not handled
again.

Out of scope: how the flows of a model come to handle failures, which is what its declaration says.

* `Session.passing`: each step of the model is asked in turn whether it may take the message.
* `Session.Shortlists`: those that may, and that no other one stands in for, are left.
* `Session.Routed`: what may become of a failure.
* `handleFailure_routed`: this is what becomes of it.
* **`routed_of_call`**: so it is with every step that fails in a call, and the call ends with the
  error or goes on with what the handler published.
-/

namespace UseCaseEngine

variable {S : Signature}

/-! ## Steps that may take a message -/

section Session

variable (app : Application S) (calls : Calls S) (s : Session S)

/-- The steps that may take a message of the type, at the cursor and for the actor of the session's
runner in this world. They are asked one after the other, and what the guards of one of them do is
done when the next one is asked. -/
def Session.passing (type : MessageType) (scope : Scope) (w : World S) : List (Step (code S)) :=
  UseCaseEngine.passing (evalGuard app calls) s.model (w.runner s.runner).working
    (w.runner s.runner).actor type scope w

/-- A session looks for steps that may take a message of the type, from this world on, and these are
left: those that pass, but for those that another one of them stands in for. -/
structure Session.Shortlists (type : MessageType) (scope : Scope) (w : World S)
    (left : List (Step (code S))) (w' : World S) : Prop where
  undisturbed : Undisturbed s.runner w w'
  outermost : Outermost s.model (s.passing app calls type scope w) left
  /-- If guards change nothing, then all steps are asked in this one world. -/
  quiet : (∀ g, s.model.HasGuard g → (evalGuard app calls g w).2 = w) →
    w' = w ∧ s.passing app calls type scope w = s.model.steps.filter fun step =>
      step.fits (w.runner s.runner).working (w.runner s.runner).actor type scope &&
        step.isReachedIn (evalGuard app calls) s.model (w.runner s.runner).working w

variable {app calls s} (hperform : ∀ q, Effect.Within (Undisturbed s.runner) (perform app calls q))
include hperform

/-- **The candidates are the steps that are left.** -/
theorem shortlists_of_candidates (hplaced : s.model.Placed) {type : MessageType} {scope : Scope}
    {w w' : World S} {left : List (Step (code S))}
    (h : (candidates (evalGuard app calls) s.model (w.runner s.runner).working
      (w.runner s.runner).actor type scope).run w = (.ok left, w')) :
    s.Shortlists app calls type scope w left w' := by
  have hwithin := (composes_undisturbed s.runner).sequential.candidates app calls hperform s.model
    (w.runner s.runner).working (w.runner s.runner).actor type scope w
  rw [h] at hwithin
  refine ⟨hwithin, outermost_of_candidates _ _ _ _ _ _ hplaced (congrArg Prod.fst h),
    fun hquiet => ⟨?_, passing_of_quiet hquiet⟩⟩
  rw [candidates_of_quiet _ _ _ _ hquiet] at h
  exact (congrArg Prod.snd h).symm

end Session

/-! ## Steps that fail -/

/-- A step failed: it became the latest one, with no target pending and the same frames, this is
committed, and it was recorded if recording was on then. -/
structure Fails (r : RunnerId S) (step : Step (code S)) (m : Message) (failure : Failure)
    (w w₁ w' : World S) : Prop where
  cursor : (w'.runner r).cursor = (w.runner r).cursor.reached step
  engaged : Engaged (w'.runner r)
  recording : (w'.runner r).recording = (w₁.runner r).recording.record step.name m.type
  journal : w'.journal = .moved r ⟨step.id, m, .error failure, []⟩ :: w₁.journal

section Session

/-- What does not fail is published, or it is an error. -/
theorem follow_of_ok (app : Application S) (calls : Calls S) (s : Session S)
    (step : Step (code S)) (m : Message) (message : Option Message) (w : World S) :
    ∃ (result : Except RunnerError (Option Message)) (w' : World S),
      (s.follow app calls step m (.ok message)).run w = (result.map .published, w') := by
  unfold Session.follow
  rw [Attempt.run_lift_bind]
  generalize s.applyReaction app calls step w = applied
  obtain ⟨⟨e | _, answers⟩, w₁⟩ := applied
  · exact ⟨.error e, _, rfl⟩
  · dsimp only
    rw [Attempt.run_lift_bind]
    generalize (s.commit ⟨step.id, m, .ok message, answers⟩ w₁).2 = w₂
    rw [Attempt.run_bind]
    generalize (s.deliver app calls step message).run w₂ = delivered
    obtain ⟨e | left, w₃⟩ := delivered
    · exact ⟨.error e, w₃, rfl⟩
    · exact ⟨.ok left, w₃, rfl⟩

variable {app : Application S} {calls : Calls S} {s : Session S} {step : Step (code S)}
  {m : Message} {w w₁ : World S}

/-- The failure of a step that does not handle failures itself is handled. -/
theorem execute_of_failed (hplain : step.handlesFailure = false) {failure : Failure} {w' : World S}
    (h : (s.offer app calls step m).run w = (.ok (.failed failure), w')) :
    (s.execute app calls step m).run w =
      (((s.handleFailure app calls step failure).run w').1.map some,
        ((s.handleFailure app calls step failure).run w').2) := by
  unfold Session.execute
  rw [Attempt.run_bind, h]
  change (if step.handlesFailure = true then
      throw (RunnerError.uncaughtReaction step.name failure)
    else do return some (← s.handleFailure app calls step failure) : Attempt S _).run w' = _
  rw [if_neg (by rw [hplain]; exact Bool.false_ne_true), Attempt.run_bind]
  generalize (s.handleFailure app calls step failure).run w' = result
  obtain ⟨e | message, w''⟩ := result <;> rfl

variable (hperform : ∀ q, Effect.Within (Undisturbed s.runner) (perform app calls q))
include hperform

omit hperform in
/-- A session that starts a step does nothing but note that it offers it. -/
theorem start_lingers (step : Step (code S)) (m : Message) (w : World S) :
    Lingers s.runner [.offered s.runner step.id m] w (s.start step m w).2 := by
  have hactivity : Lingers s.runner [] w (Effect.modifyRunner s.runner
      (fun x => { x with activity := .reacting step.name }) w).2 := by
    refine ⟨?_, ?_, [], rfl, rfl, rfl, fun _ => ?_⟩
    · rw [runner_modifyRunner_self]
    · rw [runner_modifyRunner_self]
    · rw [runner_modifyRunner_self]
      rfl
  exact hactivity.trans (lingers_note rfl rfl (fun _ _ => rfl) _)

/-- What the hook does that suppresses a step does not disturb the call. -/
theorem lingers_of_suppressed
    (h : s.hooked app calls step m (s.start step m w).2 = (none, w₁)) :
    Lingers s.runner [.offered s.runner step.id m] w w₁ := by
  have hbusy : ((s.start step m w).2.runner s.runner).activity ≠ .idle := by
    change ((Effect.modifyRunner s.runner (fun x => { x with activity := .reacting step.name })
      w).2.runner s.runner).activity ≠ .idle
    rw [runner_modifyRunner_self]
    exact nofun
  have hstart : Lingers s.runner _ w (s.start step m w).2 := start_lingers step m w
  have hadvice := (composes_undisturbed s.runner).sequential.exec app calls hperform
    (s.hook step m) (s.start step m w).2
  unfold Session.hooked at h
  rw [Effect.run_bind] at h
  generalize exec app calls (s.hook step m) (s.start step m w).2 = advice at hadvice h
  obtain ⟨output | after, w₂⟩ := advice
  · cases h
    exact hstart.trans (hadvice.lingers hbusy)
  · cases congrArg Prod.fst h

/-- **A step that failed is committed and recorded.** -/
theorem fails_of_hooked (hengaged : Engaged (w.runner s.runner)) {failure : Failure}
    (h : s.hooked app calls step m (s.start step m w).2 = (some (.error failure), w₁)) :
    ∃ w', (s.offer app calls step m).run w = (.ok (.failed failure), w') ∧
      Fails s.runner step m failure w w₁ w' := by
  have hpaused : (w₁.runner s.runner).working = (w.runner s.runner).working ∧
      (w₁.runner s.runner).activity ≠ .idle := by
    have haround := around_spec app s hperform step m (Effect.modifyRunner s.runner
      (fun x => { x with activity := .reacting step.name }) w).2
    change s.Around step m _ (s.hooked app calls step m (s.start step m w).2) at haround
    rw [h] at haround
    obtain ⟨w₂, hpause, rfl⟩ := haround
    unfold Pause at hpause
    rw [runner_modifyRunner_self] at hpause
    obtain ⟨events, -, hlull⟩ := hpause nofun
    exact ⟨hlull.session.working, hlull.session.activity ▸ nofun⟩
  have hlogged : ((s.log step m w₁).2.runner s.runner) = { w₁.runner s.runner with
      working := (w₁.runner s.runner).working.reached step
      recording := (w₁.runner s.runner).recording.record step.name m.type } := by
    unfold Session.log
    rw [runner_modifyRunner_self]
  refine ⟨_, offer_of_hooked app calls h, ?_⟩
  change Fails s.runner step m failure w w₁
    (s.commit ⟨step.id, m, .error failure, []⟩ (s.log step m w₁).2).2
  have hcommitted := runner_commit s ⟨step.id, m, .error failure, []⟩ (s.log step m w₁).2
  rw [hlogged] at hcommitted
  refine ⟨?_, ⟨?_, ?_⟩, ?_, rfl⟩
  · rw [hcommitted, ← hengaged.committed, ← hpaused.1]
  · rw [hcommitted]
    exact hpaused.2
  · rw [hcommitted]
  · rw [hcommitted]

end Session

/-! ## What becomes of a failure -/

section Routing

variable (app : Application S) (calls : Calls S) (s : Session S)

/-- Exactly one step is left that may handle the failure, and it is resolved. -/
structure Session.Elects (failure : Failure) (w : World S) (handler : Step (code S))
    (w' : World S) : Prop where
  handlesFailure : handler.handlesFailure = true
  shortlisted : ∃ v, s.Shortlists app calls failure.type .failure w [handler] v ∧
    w' = v.note (.resolved s.runner handler.id .failure (w.runner s.runner).working
      (w.runner s.runner).actor w.state)

/-- What may become of the failure of a step that is committed. -/
inductive Session.Routed (failed : Step (code S)) (failure : Failure) (w : World S) :
    Except RunnerError (Option Message) → World S → Prop where
  /-- A reference was met that cannot be resolved. -/
  | unknown {name : String} {w' : World S} (hunknown : s.model.stepNamed? name = none)
      (h : (candidates (evalGuard app calls) s.model (w.runner s.runner).working
        (w.runner s.runner).actor failure.type .failure).run w =
          (.error (.unknownStep name), w')) :
      Routed failed failure w (.error (.unknownStep name)) w'
  /-- No step may handle it. -/
  | uncaught {w' : World S} (h : s.Shortlists app calls failure.type .failure w [] w') :
      Routed failed failure w (.error (.uncaughtReaction failed.name failure)) w'
  /-- Several steps may handle it. -/
  | ambiguous {left : List (Step (code S))} {w' : World S}
      (h : s.Shortlists app calls failure.type .failure w left w') (hseveral : 2 ≤ left.length) :
      Routed failed failure w
        (.error (.ambiguousReaction failure.type.name (left.map (·.name)))) w'
  /-- The hook does not let the only one react. -/
  | suppressed {handler : Step (code S)} {w₁ w' : World S}
      (h : s.Elects app calls failure w handler w₁)
      (hhooked : s.hooked app calls handler failure.condition
        (s.start handler failure.condition w₁).2 = (none, w'))
      (hlingers : Lingers s.runner [.resolved s.runner handler.id .failure
        (w.runner s.runner).working (w.runner s.runner).actor w.state,
        .offered s.runner handler.id failure.condition] w w') :
      Routed failed failure w (.error (.uncaughtReaction failed.name failure)) w'
  /-- The only one fails itself. -/
  | failed {handler : Step (code S)} {again : Failure} {w₁ w₂ w' : World S}
      (h : s.Elects app calls failure w handler w₁)
      (hhooked : s.hooked app calls handler failure.condition
        (s.start handler failure.condition w₁).2 = (some (.error again), w₂))
      (hfails : Fails s.runner handler failure.condition again w w₂ w') :
      Routed failed failure w (.error (.uncaughtReaction handler.name again)) w'
  /-- The only one does not fail: it is executed like any step. -/
  | executed {handler : Step (code S)} {message : Option Message}
      {result : Except RunnerError (Option Message)} {w₁ w₂ w' : World S}
      (h : s.Elects app calls failure w handler w₁)
      (hhooked : s.hooked app calls handler failure.condition
        (s.start handler failure.condition w₁).2 = (some (.ok message), w₂))
      (hexecuted : (s.execute app calls handler failure.condition).run w₁ =
        (result.map some, w')) :
      Routed failed failure w result w'

variable {app calls s} (hperform : ∀ q, Effect.Within (Undisturbed s.runner) (perform app calls q))
include hperform

omit hperform in
/-- A step that is left handles failures. -/
theorem Session.Shortlists.handlesFailure {type : MessageType} {w w' : World S}
    {left : List (Step (code S))} (h : s.Shortlists app calls type .failure w left w')
    {handler : Step (code S)} (hleft : handler ∈ left) : handler.handlesFailure = true := by
  obtain ⟨x, hx, rfl⟩ := List.mem_map.mp ((h.outermost.mem handler).mp hleft).1
  obtain ⟨-, hfits⟩ := fits_of_mem_asked (List.mem_filter.mp hx).1
  simp only [Step.fits, Scope.admits, Bool.and_eq_true] at hfits
  exact hfits.1.1

omit hperform in
/-- Only the step that may handle the failure is resolved, and the call stays where it was. -/
theorem Session.Elects.lingers {failure : Failure} {handler : Step (code S)} {w w₁ : World S}
    (h : s.Elects app calls failure w handler w₁) (hengaged : Engaged (w.runner s.runner)) :
    Engaged (w₁.runner s.runner) ∧ Lingers s.runner [.resolved s.runner handler.id .failure
      (w.runner s.runner).working (w.runner s.runner).actor w.state] w w₁ := by
  obtain ⟨-, v, hlist, rfl⟩ := h
  obtain ⟨events, -, hapart⟩ := hlist.undisturbed hengaged.busy
  refine ⟨⟨?_, ?_⟩, (hlist.undisturbed.lingers hengaged.busy).trans (lingers_resolved ..)⟩
  · exact hapart.session.activity ▸ hengaged.busy
  · exact hapart.session.working.trans (hengaged.committed.trans hapart.session.cursor.symm)

/-- **The only step that may handle a failure** is offered it, and what becomes of that. -/
theorem Session.Elects.routed {failed handler : Step (code S)} {failure : Failure} {w w₁ : World S}
    (h : s.Elects app calls failure w handler w₁) (hengaged : Engaged (w.runner s.runner))
    {result : Except RunnerError (Option Message)} {w' : World S}
    (hresult : (do
      match ← s.offer app calls handler failure.condition with
      | .suppressed => throw (RunnerError.uncaughtReaction failed.name failure)
      | .published message => return message
      | .failed again => throw (RunnerError.uncaughtReaction handler.name again) :
        Attempt S (Option Message)).run w₁ = (result, w')) :
    s.Routed app calls failed failure w result w' := by
  obtain ⟨hengaged₁, hlingers⟩ := h.lingers hengaged
  rw [Attempt.run_bind] at hresult
  rcases hhooked : s.hooked app calls handler failure.condition
    (s.start handler failure.condition w₁).2 with ⟨_ | again | message, w₂⟩
  · have hoffer : (s.offer app calls handler failure.condition).run w₁ = (.ok .suppressed, w₂) := by
      rw [Session.offer_parts, Attempt.run_lift_bind, Attempt.run_lift_bind, hhooked]
      rfl
    rw [hoffer] at hresult
    cases hresult
    exact .suppressed h hhooked (hlingers.trans (lingers_of_suppressed hperform hhooked))
  · obtain ⟨w₃, hoffer, hfails⟩ := fails_of_hooked hperform hengaged₁ hhooked
    rw [hoffer] at hresult
    cases hresult
    refine .failed h hhooked ⟨?_, hfails.engaged, hfails.recording, hfails.journal⟩
    rw [hfails.cursor, hlingers.cursor]
  · obtain ⟨left, w₃, hfollow⟩ := follow_of_ok app calls s handler failure.condition message
      (s.log handler failure.condition w₂).2
    have hoffer := (offer_of_hooked app calls hhooked).trans hfollow
    refine .executed h hhooked ?_
    unfold Session.execute
    rw [Attempt.run_bind, hoffer]
    rw [hoffer] at hresult
    cases left <;> cases hresult <;> rfl

/-- **A failure is routed** to the only step that may handle it. -/
theorem handleFailure_routed (hplaced : s.model.Placed) (failed : Step (code S))
    (failure : Failure) {w : World S} (hengaged : Engaged (w.runner s.runner)) :
    s.Routed app calls failed failure w ((s.handleFailure app calls failed failure).run w).1
      ((s.handleFailure app calls failed failure).run w).2 := by
  have hresolve := resolve_of_candidates app calls s failure.type .failure w
  unfold Session.handleFailure
  rw [Attempt.run_bind, hresolve]
  rcases hleft : (candidates (evalGuard app calls) s.model (w.runner s.runner).working
    (w.runner s.runner).actor failure.type .failure).run w with
    ⟨e | _ | ⟨handler, _ | ⟨other, rest⟩⟩, w₁⟩
  · have hraises : Raises s.model.Misses _ := candidates_raises (w.runner s.runner).working
      (w.runner s.runner).actor failure.type .failure
    have herror := congrArg Prod.fst hleft
    rw [← hoist_candidates] at herror
    obtain ⟨name, hunknown, rfl⟩ := hraises.hoist _ herror
    exact .unknown hunknown hleft
  · exact .uncaught (shortlists_of_candidates hperform hplaced hleft)
  · have hlist := shortlists_of_candidates hperform hplaced hleft
    exact Session.Elects.routed hperform
      ⟨hlist.handlesFailure List.mem_cons_self, w₁, hlist, rfl⟩ hengaged rfl
  · exact .ambiguous (shortlists_of_candidates hperform hplaced hleft) (by simp)

end Routing

/-! ## Calls -/

section Call

variable (app : Application S) (calls : Calls S) (r : RunnerId S)

/-- In a call, a session looks for a step that takes the message, with something pending. If one
does, so many system steps are executed then. -/
inductive Call.Looks (w : World S) :
    Call S → Nat → Session S → Option Message → Message → World S → Prop where
  | first {m : Message} {name : S.ModelName} {s : Session S} {v : World S}
      (hrunning : (w.runner r).running = true) (hmodel : (w.runner r).model = some name)
      (hopen : openSession app r name (w.entered r) = (s, v)) : Looks w (.react m) 0 s none m v
  | next {c : Call S} {k : Nat} {s : Session S} {last : Option Message} {v : World S}
      (hk : k < (w.runner r).settings.maxContinuations.toNat)
      (h : c.Completes app calls r w k s last v) : Looks w c (k + 1) s last .systemEvent v

variable {app calls r} {c : Call S} {k : Nat} {s : Session S} {pending : Option Message}
  {m : Message} {w v v₁ w' : World S} {step : Step (code S)}

/-- A round may be added at the end. -/
theorem Session.Rounds.concat {last message : Option Message} {w₁ w₂ : World S}
    (h : s.Rounds app calls k pending w last w')
    (hresolve : (s.resolve app calls .systemEvent .normal).run w' = (.ok (some step), w₁))
    (hexecute : (s.execute app calls step .systemEvent).run w₁ = (.ok (some message), w₂)) :
    s.Rounds app calls (k + 1) pending w message (s.release app calls last w₂).2 := by
  induction h with
  | none pending w => exact .next hresolve hexecute (.none _ _)
  | next hfirst hsecond hrest ih => exact .next hfirst hsecond (ih hresolve)

theorem Call.Looks.opened (h : Call.Looks app calls r w c k s pending m v) :
    ∃ u, s.Opened app r w u ∧
      ∀ R, Composes R → s.Parts app calls (Effect.Within R) → R u v := by
  cases h with
  | first hrunning hmodel hopen => exact ⟨v, opened_of_reaction hopen, fun R hR _ => hR.refl v⟩
  | next hk h => exact h.opened

/-- **A call goes on with what is left of what a step published.** -/
theorem Call.Looks.completes (h : Call.Looks app calls r w c k s pending m v)
    (hresolve : (s.resolve app calls m.type .normal).run v = (.ok (some step), v₁))
    {message : Option Message}
    (hexecute : (s.execute app calls step m).run v₁ = (.ok (some message), w')) :
    c.Completes app calls r w k s message (s.release app calls pending w').2 := by
  cases h with
  | first hrunning hmodel hopen =>
    exact ⟨message, w', .reacted hrunning hmodel hopen hresolve hexecute, .none message w'⟩
  | next hk h =>
    obtain ⟨pending, u, hgoesOn, hrounds⟩ := h
    exact ⟨pending, u, hgoesOn, hrounds.concat hresolve hexecute⟩

/-- **A call ends with the error of a step.** -/
theorem Call.Looks.fails (h : Call.Looks app calls r w c k s pending m v)
    (hresolve : (s.resolve app calls m.type .normal).run v = (.ok (some step), v₁))
    {e : RunnerError} (hexecute : (s.execute app calls step m).run v₁ = (.error e, w')) :
    occupy app calls r c w = (.error e, w'.left r) := by
  cases h with
  | first hrunning hmodel hopen =>
    have hserve : (serve app calls r (.react m)).run (w.entered r) = (.error e, w') := by
      rw [serve_of_running hrunning hmodel hopen, Session.react_eq_take, take_of_resolve hresolve,
        Attempt.run_bind, hexecute]
      rfl
    rw [occupy_eq, hserve]
  | next hk h =>
    obtain ⟨pending, u, hgoesOn, hrounds⟩ := h
    obtain ⟨-, ⟨-, -, hlimit, -⟩, -⟩ := hgoesOn.opened
    obtain ⟨left, hleft⟩ := Nat.exists_eq_add_of_lt (hlimit ▸ hk)
    have hcontinued : (s.continueWith app calls s.limit pending).run u = (.error e, w') := by
      rw [hleft, Nat.add_assoc, continueWith_of_rounds hrounds, Session.continueWith_eq_take,
        take_of_resolve (m := .systemEvent) hresolve, Attempt.run_bind, hexecute]
      rfl
    rw [occupy_eq, serve_of_goesOn hgoesOn, Attempt.run_bind, hcontinued]
    rfl

/-- The session is in the call, and has committed its cursor, when it looks for a step. -/
theorem Call.Looks.engaged (h : Call.Looks app calls r w c k s pending m v) (hbuilt : app.Built)
    (hperform : ∀ q, Effect.Within (Undisturbed r) (perform app calls q)) :
    s.runner = r ∧ s.model.Placed ∧ Engaged (v.runner r) := by
  obtain ⟨u, ⟨rfl, ⟨name, hmodel⟩, -, hengaged, -⟩, hwithin⟩ := h.opened
  have hplaced : s.model.Placed := hmodel ▸ placed_of_build (hbuilt name)
  exact ⟨rfl, hplaced, (hwithin _ (composes_told s.model s.runner)
    (parts_told app s hperform hplaced) hengaged).1⟩

end Call

/-- **How a failure is routed**, in every call that was admitted, whatever user code does. A session
of the call looks for a step that takes the message of the call or a system event; it finds one, and
what the hook makes of the step's reaction is a failure. Then the step does not handle failures
itself. It is committed as the latest one, with the same frames, and recorded. The failure is routed
from there: exactly those steps are considered that handle failures, are open to the actor, expect
the failure's type and can be reached when they are asked, and that no other one of them stands in
for. None or several of them are an error, and so is a reference that cannot be resolved. The only
one is offered what failed, once; if it is suppressed, the first failure stays uncaught and nothing
else has changed, and if it fails, its failure is uncaught. With an error the call ends. Otherwise
the call goes on with what is left of what the handler published. -/
theorem routed_of_call {app : Application S} (hbuilt : app.Built) (depth : Nat) (r : RunnerId S)
    (c : Call S) {w : World S} (hidle : (w.runner r).activity = .idle) {k : Nat} {s : Session S}
    {pending : Option Message} {m : Message} {v : World S}
    (hlooks : Call.Looks app (callWithin app depth) r w c k s pending m v) {step : Step (code S)}
    {v₁ : World S}
    (hresolve : (s.resolve app (callWithin app depth) m.type .normal).run v =
      (.ok (some step), v₁))
    {failure : Failure} {w₁ : World S}
    (hfailed : s.hooked app (callWithin app depth) step m (s.start step m v₁).2 =
      (some (.error failure), w₁)) :
    step.handlesFailure = false ∧
    ∃ w₂ result w₃,
      (s.offer app (callWithin app depth) step m).run v₁ = (.ok (.failed failure), w₂) ∧
      Fails r step m failure v w₁ w₂ ∧
      (s.handleFailure app (callWithin app depth) step failure).run w₂ = (result, w₃) ∧
      s.Routed app (callWithin app depth) step failure w₂ result w₃ ∧
      (∀ e, result = .error e → callWithin app (depth + 1) r c w = (.error e, w₃.left r)) ∧
      ∀ message, result = .ok message → c.Completes app (callWithin app depth) r w k s message
        (s.release app (callWithin app depth) pending w₃).2 := by
  have hperform := perform_undisturbed app r depth
  obtain ⟨rfl, hplaced, hengaged⟩ := hlooks.engaged hbuilt hperform
  have hplain : step.handlesFailure = false := by
    have hadmits := (eligible_of_resolve app _ s (congrArg Prod.fst hresolve)).2.1
    simp only [Scope.admits, Bool.and_eq_true, Bool.not_eq_true'] at hadmits
    exact hadmits.1
  -- The failure is routed from the world in which the failed step is committed already.
  have hfound := lingers_of_resolve hperform hengaged.busy hresolve
  have hengaged₁ : Engaged (v₁.runner s.runner) := by
    have hready := (resolve_found app s hperform false m.type .normal v
      ⟨hengaged.busy, fun h => absurd h Bool.false_ne_true⟩).1
    rw [hresolve] at hready
    refine ⟨hready.busy, ?_⟩
    rw [hfound.working, hfound.cursor, hengaged.committed]
  obtain ⟨w₂, hoffer, hfails⟩ := fails_of_hooked hperform hengaged₁ hfailed
  have hexecute := execute_of_failed hplain hoffer
  have hrouted := handleFailure_routed hperform hplaced step failure hfails.engaged
  rcases hhandled : (s.handleFailure app (callWithin app depth) step failure).run w₂ with
    ⟨result, w₃⟩
  rw [hhandled] at hexecute hrouted
  refine ⟨hplain, w₂, result, w₃, hoffer, ⟨?_, hfails.engaged, hfails.recording, hfails.journal⟩,
    hhandled, hrouted, fun e he => ?_, fun message hmessage => ?_⟩
  · rw [hfails.cursor, hfound.cursor]
  · subst he
    rw [callWithin_of_idle app depth s.runner c hidle]
    exact hlooks.fails hresolve hexecute
  · subst hmessage
    exact hlooks.completes hresolve hexecute

namespace Shop

/-- The session of the call in which an order is paid for, and its world. -/
def paying : Session signature × World signature :=
  openSession application clerk () ((ordered true).entered clerk)

/-- It finds the step that takes the payment. -/
theorem exists_paying :
    ∃ step v₁, (paying.1.resolve application (callWithin application 0) payType .normal).run
        paying.2 = (.ok (some step), v₁) ∧ step.name = "Pay" ∧
      step.reaction = .function fun m => .done (accept m) := by
  have hid : ((paying.1.resolve application (callWithin application 0) payType .normal).run
      paying.2).1.toOption.map (·.map (·.id)) = some (some ⟨5⟩) := by decide +kernel
  rcases hresolve : (paying.1.resolve application (callWithin application 0) payType .normal).run
    paying.2 with ⟨e | _ | step, v₁⟩
  · rw [hresolve] at hid
    cases hid
  · rw [hresolve] at hid
    cases hid
  · have hmem : step ∈ (application.model ()).steps :=
      (eligible_of_resolve application _ _ (congrArg Prod.fst hresolve)).1
    rw [hresolve] at hid
    have hstep : step.id = ⟨5⟩ := Option.some.inj (Option.some.inj hid)
    have hself := (placed_of_build (built ())).step?_self hmem
    rw [hstep] at hself
    cases hself
    exact ⟨_, v₁, rfl, rfl, rfl⟩

/-- The payment is declined. -/
theorem hooked_paying {step : Step (code signature)}
    (hreaction : step.reaction = .function fun m => .done (accept m)) (w : World signature) :
    ∃ w', paying.1.hooked application (callWithin application 0) step (pay "card") w =
      (some (.error ⟨.plain declinedType ""⟩), w') := by
  have htrigger : (paying.1.trigger application (callWithin application 0) step (pay "card") w).1 =
      .error ⟨.plain declinedType ""⟩ := by
    unfold Session.trigger Session.execReaction
    rw [hreaction]
    rfl
  have hhook : paying.1.hook = Hook.callThrough := by
    obtain ⟨-, -, hhook, -⟩ := openSession_eq (Prod.eta paying).symm
    rw [hhook]
    generalize (World.runner _ clerk).hook = hook
    cases hook with
    | none => rfl
    | some name => exact name.elim
  rw [hooked_callThrough application _ hhook, htrigger]
  exact ⟨_, rfl⟩

end Shop

/-- A payment that is declined is committed, and what its failure says is handled. -/
theorem routed_in_shop :
    (call Shop.application Shop.clerk (.react (Shop.pay "card")) (Shop.ordered true)).1.isOk =
        true ∧
      ∃ step v₁ w₁ w₂ message w₃,
        (Shop.paying.1.resolve Shop.application (callWithin Shop.application 0) Shop.payType
          .normal).run Shop.paying.2 = (.ok (some step), v₁) ∧
        step.name = "Pay" ∧
        Shop.paying.1.hooked Shop.application (callWithin Shop.application 0) step
          (Shop.pay "card") (Shop.paying.1.start step (Shop.pay "card") v₁).2 =
            (some (.error ⟨.plain Shop.declinedType ""⟩), w₁) ∧
        Fails Shop.clerk step (Shop.pay "card") ⟨.plain Shop.declinedType ""⟩ Shop.paying.2 w₁ w₂ ∧
        Shop.paying.1.Routed Shop.application (callWithin Shop.application 0) step
          ⟨.plain Shop.declinedType ""⟩ w₂ (.ok message) w₃ := by
  have hok : (call Shop.application Shop.clerk (.react (Shop.pay "card"))
      (Shop.ordered true)).1.isOk = true := by decide +kernel
  refine ⟨hok, ?_⟩
  have hlooks : Call.Looks Shop.application (callWithin Shop.application 0) Shop.clerk
      (Shop.ordered true) (.react (Shop.pay "card")) 0 Shop.paying.1 none (Shop.pay "card")
      Shop.paying.2 :=
    .first (by decide +kernel) (show _ = some () by decide +kernel) rfl
  obtain ⟨step, v₁, hresolve, hname, hreaction⟩ := Shop.exists_paying
  obtain ⟨w₁, hfailed⟩ := Shop.hooked_paying hreaction
    (Shop.paying.1.start step (Shop.pay "card") v₁).2
  obtain ⟨-, w₂, result, w₃, -, hfails, -, hrouted, herror, -⟩ :=
    routed_of_call Shop.built 0 Shop.clerk (.react (Shop.pay "card")) (by decide +kernel) hlooks
      hresolve hfailed
  rcases result with e | message
  · have hcall := congrArg (fun out => out.1.isOk) (herror e rfl)
    cases hok.symm.trans hcall
  · exact ⟨step, v₁, w₁, w₂, message, w₃, hresolve, hname, hfailed, hfails, hrouted⟩

end UseCaseEngine
