import UseCaseEngine.Proofs.Publishing
import UseCaseEngine.Proofs.Stopping

/-!
# Calls that trigger nothing

Before a call triggers a step, it consults user code: guards, and the hook of its runner. It moves
nothing until then. If no step can be found, if several are found, or if the hook does not let the
step react, the call ends without a trace in its runner, and nothing is handed to anybody. All that
may have changed is what the consulted code itself changes. So if the call is repeated, and that
code sees the same as before, the same comes of it again.

Out of scope: guards and hooks that operate on the runner, which may change it before they decline.

* `Session.considers`: what a session does until it triggers a step.
* `react_of_considers`: if it triggers none, this is all that it does.
* `callWithin_still`: a call that triggers nothing leaves its runner as it was.
* `callWithin_alike`: it comes to the same wherever the runner and what is seen are the same.
* **`untriggered_spec`**: what a call that triggers nothing does, however often it is repeated.
-/

namespace UseCaseEngine

variable {S : Signature}

/-! ## What a call notes if it triggers nothing -/

section Rules

variable {model : Model (code S)} {r : RunnerId S} {step : Step (code S)} {m : Message}
  {events : List (Event S)}

/-- A step that is not triggered was suppressed. -/
theorem Offered.untriggered {result : Except RunnerError Reacted}
    (h : Offered model r step m result events)
    (hnone : events.filterMap (Event.trigger? r) = []) :
    result = .ok .suppressed ∧ events = [.offered r step.id m] := by
  cases h with
  | suppressed => exact ⟨rfl, rfl⟩
  | reacted raw state h => simp [Event.trigger?] at hnone

theorem Executed.untriggered {result : Except RunnerError (Option (Option Message))}
    (h : Executed model r step m result events)
    (hnone : events.filterMap (Event.trigger? r) = []) :
    result = .ok none ∧ events = [.offered r step.id m] := by
  cases h with
  | broken h => cases (h.untriggered hnone).1
  | suppressed h => exact ⟨rfl, (h.untriggered hnone).2⟩
  | published h => cases (h.untriggered hnone).1
  | uncaught hhandler h => cases (h.untriggered hnone).1
  | failed hhandler hoffered h =>
    rw [List.filterMap_append, List.append_eq_nil_iff] at hnone
    cases (hoffered.untriggered hnone.1).1

/-- **Without a trigger, nothing is published or delivered**, and a step that was offered something
was suppressed. -/
theorem Answered.untriggered {installed : Bool} {limit : Nat} {result : CallResult}
    (h : Answered model r installed limit m result events)
    (hnone : events.filterMap (Event.trigger? r) = []) :
    events.filterMap (Event.publication? r) = [] ∧ events.filterMap (Event.delivery? r) = [] ∧
      (events.filterMap (Event.offer? r) ≠ [] → result = .ok none) := by
  have hquiet {type : MessageType} {scope : Scope}
      {result : Except RunnerError (Option (Step (code S)))} {events : List (Event S)}
      (h : Found model r type scope result events) :
      events.filterMap (Event.publication? r) = [] ∧
        events.filterMap (Event.delivery? r) = [] := by
    cases h <;> exact ⟨rfl, rfl⟩
  cases h with
  | unresolved h => exact ⟨(hquiet h).1, (hquiet h).2, fun hoffers => absurd h.offers hoffers⟩
  | unhandled h => exact ⟨(hquiet h).1, (hquiet h).2, fun _ => rfl⟩
  | broken hfound h =>
    rw [List.filterMap_append, List.append_eq_nil_iff] at hnone
    cases (h.untriggered hnone.2).1
  | suppressed hfound h =>
    rw [List.filterMap_append, List.append_eq_nil_iff] at hnone
    obtain ⟨-, rfl⟩ := h.untriggered hnone.2
    rw [List.filterMap_append, List.filterMap_append, (hquiet hfound).1, (hquiet hfound).2]
    exact ⟨rfl, rfl, fun _ => rfl⟩
  | executed hfound h hrest =>
    rw [List.filterMap_append, List.append_eq_nil_iff, List.filterMap_append,
      List.append_eq_nil_iff] at hnone
    cases (h.untriggered hnone.2.1).1

end Rules

/-- Nothing that happened triggered a step of the runner. -/
def Untriggered (r : RunnerId S) (w w' : World S) : Prop :=
  ∃ events, w'.journal = events ++ w.journal ∧ triggers r events = []

theorem composes_untriggered (r : RunnerId S) : Composes (Untriggered r) where
  refl _ := ⟨[], rfl, rfl⟩
  trans := by
    rintro w₁ w₂ w₃ ⟨old, hold, holdNone⟩ ⟨new, hnew, hnewNone⟩
    refine ⟨new ++ old, by rw [hnew, hold, List.append_assoc], ?_⟩
    unfold triggers at holdNone hnewNone ⊢
    rw [readOff_append, holdNone, hnewNone]
    rfl

theorem untriggered_of_events {r : RunnerId S} {w w' : World S} (events : List (Event S))
    (hjournal : w'.journal = events ++ w.journal) (h : ∀ e ∈ events, e.trigger? r = none) :
    Untriggered r w w' :=
  ⟨events, hjournal, readOff_eq_nil_iff.mpr h⟩

theorem not_untriggered_of_suffix {r : RunnerId S} {step : StepId} {m : Message} {output : Output}
    {older : List (Event S)} {w w' : World S} (hold : w.journal <:+ older)
    (hnew : .triggered r step m output :: older <:+ w'.journal) : ¬ Untriggered r w w' := by
  rintro ⟨events, hevents, hnone⟩
  obtain ⟨before, rfl⟩ : ∃ before, before ++ w.journal = older := hold
  obtain ⟨after, hafter⟩ := hnew
  rw [← hafter, ← List.cons_append, ← List.append_assoc] at hevents
  rw [← List.append_cancel_right hevents] at hnone
  have hread := readOff_eq_nil_iff.mp hnone (.triggered r step m output) (by simp)
  simp [Event.trigger?] at hread

/-! ## Consulted code -/

/-- What a runner consults before it lets a step react has a property of effects: the guards of its
model, and its hook. -/
structure Runner.Consults (app : Application S) (calls : Calls S) (x : Runner S)
    (Φ : {α : Type} → Effect S α → Prop) : Prop where
  guard : ∀ name, x.model = some name →
    ∀ g, (app.model name).HasGuard g → Φ (evalGuard app calls g)
  hook : ∀ name, x.hook = some name → ∀ step m, Φ (exec app calls (app.hook name step m))

section Session

variable (app : Application S) (calls : Calls S) (s : Session S)

/-- Whether the hook lets a step react. -/
def Session.permits (step : Step (code S)) (m : Message) : Effect S Bool := do
  match ← exec app calls (s.hook step m) with
  | .suppress _ => return false
  | .trigger _ => return true

/-- What a session does until it triggers a step: it looks for one, and offers it the message. Gives
whether a step is going to react. -/
def Session.considers (m : Message) : Attempt S Bool := do
  match ← s.resolve app calls m.type .normal with
  | none => return false
  | some step =>
    s.start step m
    s.permits app calls step m

/-- What a session consults has a property of effects, and so does what it does meanwhile. -/
structure Session.Consults (Φ : {α : Type} → Effect S α → Prop) : Prop where
  guard : ∀ g, s.model.HasGuard g → Φ (evalGuard app calls g)
  hook : ∀ step m, Φ (exec app calls (s.hook step m))
  resolve : ∀ type, Φ (s.resolve app calls type .normal).run
  start : ∀ step m, Φ (s.start step m)

namespace Session.Consults

variable {app calls s} {Φ : {α : Type} → Effect S α → Prop} (h : s.Consults app calls Φ)
include h

variable (hΦ : Chained Φ)
include hΦ

theorem permits (step : Step (code S)) (m : Message) : Φ (s.permits app calls step m) := by
  unfold Session.permits
  refine hΦ.bind (h.hook step m) fun w => ?_
  split <;> exact hΦ.pure _

/-- **Considering a message has a property of effects** if what is consulted has it. -/
theorem considers (m : Message) : Φ (s.considers app calls m).run := by
  unfold Session.considers
  refine hΦ.attempt (h.resolve m.type) fun _ found _ => ?_
  cases found with
  | none => exact hΦ.pure _
  | some step =>
    refine hΦ.lift (h.start step m) fun _ => ?_
    exact hΦ.bind (f := fun permitted => pure (Except.ok permitted)) (h.permits hΦ step m)
      fun _ => hΦ.pure _

end Session.Consults

variable {calls} (hgrows : ∀ r c, Effect.Within Grows (calls r c))
include hgrows

/-- A step that the hook lets react is triggered, and otherwise asking the hook is all that is
done. -/
theorem permits_or_not (step : Step (code S)) (m : Message) (w : World S) :
    ((s.permits app calls step m w).1 = true ∧ ∃ raw older, w.journal <:+ older ∧
      .triggered s.runner step.id m raw :: older <:+ (s.hooked app calls step m w).2.journal) ∨
    ((s.permits app calls step m w).1 = false ∧
      s.hooked app calls step m w = (none, (s.permits app calls step m w).2)) := by
  have hperform := (primitives_grows app hgrows s.runner).perform
  have hhook := composes_grows.sequential.exec app calls hperform (s.hook step m) w
  unfold Session.permits Session.hooked
  rw [Effect.run_bind, Effect.run_bind]
  generalize exec app calls (s.hook step m) w = result at hhook ⊢
  obtain ⟨output | after, w₁⟩ := result
  · exact .inr ⟨rfl, rfl⟩
  · have hreaction := composes_grows.sequential.execReaction app calls hperform step m w₁
    refine .inl ⟨rfl, (Session.execReaction app calls step m w₁).1, _, hhook.trans hreaction, ?_⟩
    have hafter := composes_grows.sequential.exec app calls hperform
      (after (s.trigger app calls step m w₁).1) (s.trigger app calls step m w₁).2
    exact List.IsSuffix.trans hafter (List.suffix_cons _ _)

omit hgrows in
/-- A step that is not triggered is not executed. -/
theorem proceed_of_hooked {step : Step (code S)} {m : Message} {w w' : World S}
    (h : s.hooked app calls step m (s.start step m w).2 = (none, w')) :
    (s.proceed app calls step m).run w = (.ok none, w') := by
  unfold Session.proceed Session.execute
  rw [Session.offer_parts, Attempt.run_bind, Attempt.run_bind, Attempt.run_lift_bind,
    Attempt.run_lift_bind, h]
  rfl

/-- **A session does nothing else unless it triggers a step.** -/
theorem react_of_considers (m : Message) (w : World S) :
    (((s.considers app calls m).run w).1 = .ok true ∧
      ¬ Untriggered s.runner w ((s.react app calls m).run w).2) ∨
    (((s.considers app calls m).run w).1 ≠ .ok true ∧
      (s.react app calls m).run w = (((s.considers app calls m).run w).1.map fun _ => none,
        ((s.considers app calls m).run w).2)) := by
  have hparts := s.parts_grows app hgrows
  have hresolve := hparts.resolve m.type .normal w
  rw [Session.react_eq]
  unfold Session.considers
  rw [Attempt.run_bind, Attempt.run_bind]
  have hmember (step : Step (code S))
      (h : ((s.resolve app calls m.type .normal).run w).1 = .ok (some step)) :
      step ∈ s.model.steps := (eligible_of_resolve app calls s h).1
  generalize (s.resolve app calls m.type .normal).run w = result at hresolve hmember ⊢
  obtain ⟨e | _ | step, w₁⟩ := result
  · exact .inr ⟨nofun, rfl⟩
  · exact .inr ⟨nofun, rfl⟩
  · change (Except.ok (s.permits app calls step m (s.start step m w₁).2).1 = .ok true ∧
        ¬ Untriggered s.runner w ((s.proceed app calls step m).run w₁).2) ∨
      (Except.ok (s.permits app calls step m (s.start step m w₁).2).1 ≠ .ok true ∧
        (s.proceed app calls step m).run w₁ =
          (.ok none, (s.permits app calls step m (s.start step m w₁).2).2))
    rcases permits_or_not app s hgrows step m (s.start step m w₁).2 with
      ⟨hpermits, raw, older, hold, hnew⟩ | ⟨hpermits, hhooked⟩
    · have hproceed : Grows (s.hooked app calls step m (s.start step m w₁).2).2
          ((s.proceed app calls step m).run w₁).2 := by
        refine (execute_hooked app hgrows s (hmember step rfl) m w₁).trans
          (Attempt.run_bind_within composes_grows (fun w message _ => ?_) w₁)
        cases message with
        | none => exact Attempt.within_pure composes_grows _
        | some message => exact hparts.continueWith composes_grows.sequential s.limit message
      have hstart : w.journal <:+ older := hresolve.trans ((List.suffix_cons _ _).trans hold)
      exact .inl ⟨congrArg Except.ok hpermits,
        not_untriggered_of_suffix hstart (hnew.trans hproceed)⟩
    · refine .inr ⟨?_, proceed_of_hooked app s hhooked⟩
      rw [hpermits]
      exact nofun

end Session

/-! ## The runner stays as it is -/

/-- While the runner is in a call, the effect leaves it as it is. -/
def Effect.Spares (r : RunnerId S) {α : Type} (p : Effect S α) : Prop :=
  ∀ w, (w.runner r).activity ≠ .idle → (p w).2.runner r = w.runner r

/-- The runner stays in its call and is as before, but for what it is doing. No step of it was
triggered. -/
def Still (r : RunnerId S) (w w' : World S) : Prop :=
  (w.runner r).activity ≠ .idle →
    ∃ activity, activity ≠ .idle ∧ w'.runner r = { w.runner r with activity } ∧ Untriggered r w w'

section Still

variable {r : RunnerId S}

theorem composes_still (r : RunnerId S) : Composes (Still r) where
  refl w hbusy := ⟨_, hbusy, rfl, (composes_untriggered r).refl w⟩
  trans := by
    intro w₁ w₂ w₃ h₁₂ h₂₃ hbusy
    obtain ⟨a, ha, hrunner, hfirst⟩ := h₁₂ hbusy
    obtain ⟨b, hb, hrunner', hrest⟩ := h₂₃ (by rw [hrunner]; exact ha)
    refine ⟨b, hb, ?_, (composes_untriggered r).trans hfirst hrest⟩
    rw [hrunner', hrunner]

theorem still_of_spares {α : Type} {p : Effect S α} (hspares : p.Spares r)
    (hundisturbed : Effect.Within (Undisturbed r) p) : Effect.Within (Still r) p := by
  intro w hbusy
  obtain ⟨events, hjournal, hapart⟩ := hundisturbed w hbusy
  exact ⟨_, hbusy, hspares w hbusy, events, hjournal, hapart.triggers⟩

theorem still_inCall (w : World S) {activity : Activity} (h : activity ≠ .idle)
    {events : List (Event S)} (hevents : ∀ e ∈ events, e.trigger? r = none) :
    Still r w (w.inCall r activity (w.runner r).working events) := by
  refine fun _ => ⟨activity, h, ?_, untriggered_of_events events rfl hevents⟩
  rw [World.runner_inCall]

/-- What is noted of a call changes nothing. -/
theorem World.note_eq_inCall (w : World S) (r : RunnerId S) (e : Event S) :
    w.note e = w.inCall r (w.runner r).activity (w.runner r).working [e] :=
  congrArg (World.note · e) (w.setRunner_runner r).symm

theorem still_note (w : World S) {e : Event S} (h : e.trigger? r = none) :
    Still r w (w.note e) := by
  intro hbusy
  rw [w.note_eq_inCall r]
  exact still_inCall w hbusy (List.forall_mem_singleton.mpr h) hbusy

theorem Session.consults_still {app : Application S} {calls : Calls S} {s : Session S}
    (hperform : ∀ q, Effect.Within (Undisturbed s.runner) (perform app calls q))
    (hguard : ∀ g, s.model.HasGuard g → Effect.Spares s.runner (evalGuard app calls g))
    (hhook : ∀ step m, Effect.Spares s.runner (exec app calls (s.hook step m))) :
    s.Consults app calls (Effect.Within (Still s.runner)) where
  guard g hg := still_of_spares (hguard g hg)
    ((composes_undisturbed s.runner).sequential.evalGuard app calls hperform g)
  hook step m := still_of_spares (hhook step m)
    ((composes_undisturbed s.runner).sequential.exec app calls hperform _)
  resolve type w := by
    have hresolution := (composes_still s.runner).sequential.toChained.resolution app calls
      (fun g hg => still_of_spares (hguard g hg)
        ((composes_undisturbed s.runner).sequential.evalGuard app calls hperform g))
      (w.runner s.runner).working (w.runner s.runner).actor type .normal w
    rw [Session.resolve_run]
    generalize (UseCaseEngine.resolve (evalGuard app calls) s.model (w.runner s.runner).working
      (w.runner s.runner).actor type .normal).run w = result at hresolution ⊢
    obtain ⟨e | _ | step, w'⟩ := result
    · exact hresolution
    · exact hresolution
    · exact (composes_still s.runner).trans hresolution (still_note w' rfl)
  start step m w := by
    have hbusy : Activity.reacting step.name ≠ .idle := by simp
    have hnone : ∀ e ∈ [Event.offered s.runner step.id m], e.trigger? s.runner = none := by
      simp [Event.trigger?]
    exact still_inCall w hbusy hnone

end Still

/-! ## The same is seen -/

/-- A view of the world. What a call on the runner notes, and the runner's part in it, is not in
view. -/
structure View (r : RunnerId S) (V : Type) where
  see : World S → V
  blind : ∀ w activity working events, see (w.inCall r activity working events) = see w

section View

variable {r : RunnerId S} {V : Type} (v : View r V)

/-- Two worlds where the runner is in the same call, and the same is seen. -/
structure View.Alike (w₁ w₂ : World S) : Prop where
  busy : (w₁.runner r).activity ≠ .idle
  runner : w₁.runner r = w₂.runner r
  seen : v.see w₁ = v.see w₂

/-- In a call on the runner, the effect depends on nothing but the runner and what is seen. -/
def Effect.Sees {α : Type} (p : Effect S α) : Prop :=
  ∀ w₁ w₂, v.Alike w₁ w₂ → (p w₁).1 = (p w₂).1 ∧ v.see (p w₁).2 = v.see (p w₂).2

/-- Nor does the effect tell the worlds apart for what follows. -/
def Effect.InStep {α : Type} (p : Effect S α) : Prop :=
  ∀ w₁ w₂, v.Alike w₁ w₂ → (p w₁).1 = (p w₂).1 ∧ v.Alike (p w₁).2 (p w₂).2

theorem chained_inStep : Chained (Effect.InStep v) where
  pure _ _ _ halike := ⟨rfl, halike⟩
  bind := by
    intro α β p f hp hf w₁ w₂ halike
    obtain ⟨hsame, halike⟩ := hp w₁ w₂ halike
    rw [Effect.run_bind, Effect.run_bind, ← hsame]
    exact hf w₁ _ _ halike

variable {v}

theorem inStep_of_sees {α : Type} {p : Effect S α} (hspares : p.Spares r) (hsees : p.Sees v) :
    Effect.InStep v p := by
  intro w₁ w₂ halike
  obtain ⟨hsame, hseen⟩ := hsees w₁ w₂ halike
  have hfirst := hspares w₁ halike.busy
  have hsecond := hspares w₂ (halike.runner ▸ halike.busy)
  exact ⟨hsame, hfirst ▸ halike.busy, hfirst.trans (halike.runner.trans hsecond.symm), hseen⟩

theorem View.alike_inCall {w₁ w₂ : World S} {cursor : Cursor}
    (hrunner : w₂.runner r = { w₁.runner r with working := cursor }) (hseen : v.see w₂ = v.see w₁)
    {activity : Activity} (hbusy : activity ≠ .idle) (working : Cursor) (events : List (Event S)) :
    v.Alike (w₁.inCall r activity working events) (w₂.inCall r activity working events) := by
  refine ⟨?_, ?_, ?_⟩
  · rw [World.runner_inCall]
    exact hbusy
  · rw [World.runner_inCall, World.runner_inCall, hrunner]
  · rw [v.blind, v.blind, hseen]

theorem View.Alike.inCall {w₁ w₂ : World S} (h : v.Alike w₁ w₂) {activity : Activity}
    (hbusy : activity ≠ .idle) (working : Cursor) (events : List (Event S)) :
    v.Alike (w₁.inCall r activity working events) (w₂.inCall r activity working events) :=
  View.alike_inCall h.runner.symm h.seen.symm hbusy working events

/-- The state that a session notes may be out of view. -/
theorem View.Alike.note {w₁ w₂ : World S} (h : v.Alike w₁ w₂) (e e' : Event S) :
    v.Alike (w₁.note e) (w₂.note e') where
  busy := h.busy
  runner := h.runner
  seen := by rw [w₁.note_eq_inCall r, w₂.note_eq_inCall r, v.blind, v.blind, h.seen]

theorem Session.consults_inStep {app : Application S} {calls : Calls S} {s : Session S}
    {v : View s.runner V}
    (hguard : ∀ g, s.model.HasGuard g → Effect.InStep v (evalGuard app calls g))
    (hhook : ∀ step m, Effect.InStep v (exec app calls (s.hook step m))) :
    s.Consults app calls (Effect.InStep v) where
  guard := hguard
  hook := hhook
  resolve type w₁ w₂ halike := by
    have hresolution := (chained_inStep v).resolution app calls hguard (w₁.runner s.runner).working
      (w₁.runner s.runner).actor type .normal w₁ w₂ halike
    rw [Session.resolve_run, Session.resolve_run, ← halike.runner]
    generalize (UseCaseEngine.resolve (evalGuard app calls) s.model (w₁.runner s.runner).working
      (w₁.runner s.runner).actor type .normal).run w₁ = result₁ at hresolution ⊢
    generalize (UseCaseEngine.resolve (evalGuard app calls) s.model (w₁.runner s.runner).working
      (w₁.runner s.runner).actor type .normal).run w₂ = result₂ at hresolution ⊢
    obtain ⟨found, w₁'⟩ := result₁
    obtain ⟨found', w₂'⟩ := result₂
    obtain ⟨rfl : found = found', halike'⟩ := hresolution
    rcases found with e | _ | step
    · exact ⟨rfl, halike'⟩
    · exact ⟨rfl, halike'⟩
    · exact ⟨rfl, halike'.note _ _⟩
  start step m w₁ w₂ halike := by
    have hstart : (s.start step m w₂).2 = w₂.inCall s.runner (.reacting step.name)
        (w₁.runner s.runner).working [.offered s.runner step.id m] := by
      rw [halike.runner]
      rfl
    have hbusy : Activity.reacting step.name ≠ .idle := nofun
    rw [hstart]
    exact ⟨rfl, halike.inCall hbusy (w₁.runner s.runner).working [.offered s.runner step.id m]⟩

end View

/-! ## Whole calls -/

/-- A session consults what its runner consults. -/
theorem Runner.Consults.session {app : Application S} {calls : Calls S} {x : Runner S}
    {Φ : {α : Type} → Effect S α → Prop} (h : x.Consults app calls Φ)
    (hpure : ∀ advice : Advice S, Φ (pure advice : Effect S (Advice S))) (r : RunnerId S)
    {name : S.ModelName} (hmodel : x.model = some name) :
    (∀ g, (x.session app r name).model.HasGuard g → Φ (evalGuard app calls g)) ∧
      ∀ step m, Φ (exec app calls ((x.session app r name).hook step m)) := by
  refine ⟨h.guard name hmodel, fun step m => ?_⟩
  have hhook := h.hook
  unfold Runner.session
  cases hname : x.hook with
  | none => exact hpure (.trigger .done)
  | some hook => exact hhook hook hname step m

section Call

variable {app : Application S} {depth : Nat} {r : RunnerId S} {m : Message} {w : World S}

/-- What a call notes stands between the notes that it was entered and left. -/
theorem exists_between {w₁ w' : World S} (hentered : w₁.journal = .entered r :: w.journal)
    (h : Grows w₁ w') :
    ∃ since, w'.journal = since ++ w₁.journal ∧
      (w'.left r).journal = (.left r :: (since ++ [.entered r])) ++ w.journal := by
  obtain ⟨since, hsince⟩ := h
  refine ⟨since, hsince.symm, ?_⟩
  change Event.left r :: w'.journal = _
  rw [← hsince, hentered]
  simp

theorem untriggered_left_iff {w₁ w' : World S} (hentered : w₁.journal = .entered r :: w.journal)
    (h : Grows w₁ w') : Untriggered r w (w'.left r) ↔ Untriggered r w₁ w' := by
  obtain ⟨since, hsince, hleft⟩ := exists_between hentered h
  constructor
  · rintro ⟨events, hevents, hnone⟩
    rw [hleft] at hevents
    rw [← List.append_cancel_right hevents] at hnone
    refine untriggered_of_events since hsince fun e he => ?_
    exact readOff_eq_nil_iff.mp hnone e (by simp [he])
  · rintro ⟨events, hevents, hnone⟩
    rw [hsince] at hevents
    rw [← List.append_cancel_right hevents] at hnone
    refine untriggered_of_events _ hleft fun e he => ?_
    have hnone := readOff_eq_nil_iff.mp hnone e
    simp only [List.mem_cons, List.mem_append, List.not_mem_nil, or_false] at he
    rcases he with rfl | he | rfl
    · rfl
    · exact hnone he
    · rfl

/-- **A call in which nothing is triggered is over once the message was considered.** -/
theorem callWithin_of_considers (app : Application S) (depth : Nat) (m : Message)
    (hidle : (w.runner r).activity = .idle) (hrunning : (w.runner r).running = true)
    {name : S.ModelName} (hmodel : (w.runner r).model = some name) :
    let considered := (((w.runner r).session app r name).considers app (callWithin app depth) m).run
      (w.inCall r .resolving (w.runner r).cursor [.entered r])
    (considered.1 = .ok true ∧
      ¬ Untriggered r w (callWithin app (depth + 1) r (.react m) w).2) ∨
    (considered.1 ≠ .ok true ∧ callWithin app (depth + 1) r (.react m) w =
      (considered.1.map fun _ => none, considered.2.left r)) := by
  intro considered
  rw [callWithin_react app depth m hidle hrunning hmodel]
  have hgrows := callWithin_grows app depth
  have hreact := (((w.runner r).session app r name).parts_grows app hgrows).react
    composes_grows.sequential m (w.inCall r .resolving (w.runner r).cursor [.entered r])
  rcases react_of_considers app ((w.runner r).session app r name) hgrows m
    (w.inCall r .resolving (w.runner r).cursor [.entered r]) with ⟨hpermitted, h⟩ | ⟨hnot, h⟩
  · refine .inl ⟨hpermitted, fun huntriggered => h ?_⟩
    exact (untriggered_left_iff rfl hreact).mp huntriggered
  · refine .inr ⟨hnot, ?_⟩
    rw [h]

theorem World.runner_entered_left (w : World S) {r : RunnerId S}
    (hidle : (w.runner r).activity = .idle) : ((w.entered r).left r).runner r = w.runner r := by
  rw [World.runner_left, World.runner_entered, ← hidle]

/-- Considering a message in a call leaves the runner as it was. -/
theorem considers_still
    (hspares : (w.runner r).Consults app (callWithin app depth) (Effect.Spares r))
    {name : S.ModelName} (hmodel : (w.runner r).model = some name) (m : Message) :
    let considered := (((w.runner r).session app r name).considers app (callWithin app depth) m).run
      (w.inCall r .resolving (w.runner r).cursor [.entered r])
    ∃ activity, considered.2.runner r =
        { w.runner r with activity, working := (w.runner r).cursor } ∧
      Untriggered r w (considered.2.left r) := by
  obtain ⟨hguard, hhook⟩ := hspares.session (fun _ _ _ => rfl) r hmodel
  have hconsults : ((w.runner r).session app r name).Consults app (callWithin app depth)
      (Effect.Within (Still r)) :=
    Session.consults_still (perform_undisturbed app r depth) hguard hhook
  have hrunner := World.runner_inCall r .resolving (w.runner r).cursor [.entered r] w
  obtain ⟨activity, -, hsame, huntriggered⟩ :=
    hconsults.considers (composes_still r).sequential.toChained m
      (w.inCall r .resolving (w.runner r).cursor [.entered r]) (by rw [hrunner]; exact nofun)
  refine ⟨activity, by rw [hsame, hrunner], ?_⟩
  obtain ⟨events, hevents, -⟩ := id huntriggered
  exact (untriggered_left_iff rfl ⟨events, hevents.symm⟩).mpr huntriggered

/-- **A call that triggers nothing leaves its runner as it was**, if the code that it consults
leaves the runner alone. -/
theorem callWithin_still
    (hspares : (w.runner r).Consults app (callWithin app depth) (Effect.Spares r))
    (huntriggered : Untriggered r w (callWithin app (depth + 1) r (.react m) w).2) :
    ∃ working, (callWithin app (depth + 1) r (.react m) w).2.runner r =
      { w.runner r with working } := by
  by_cases hidle : (w.runner r).activity = .idle
  · rcases (w.runner r).inactive_or with hinactive | ⟨hrunning, name, hmodel⟩
    · rw [callWithin_of_inactive app depth m hidle hinactive]
      exact ⟨_, w.runner_entered_left hidle⟩
    · rcases callWithin_of_considers app depth m hidle hrunning hmodel with ⟨-, h⟩ | ⟨-, hcall⟩
      · exact absurd huntriggered h
      · obtain ⟨activity, hsame, -⟩ := considers_still hspares hmodel m
        refine ⟨(w.runner r).cursor, ?_⟩
        rw [hcall, World.runner_left, hsame, ← hidle]
  · rw [callWithin_of_busy app (depth + 1) r (.react m) w hidle]
    exact ⟨_, rfl⟩

theorem View.see_note {V : Type} (v : View r V) (w : World S) (e : Event S) :
    v.see (w.note e) = v.see w := by
  rw [w.note_eq_inCall r, v.blind]

theorem View.see_left {V : Type} (v : View r V) (w : World S) : v.see (w.left r) = v.see w :=
  v.blind w .idle (w.runner r).working [.left r]

theorem View.see_entered {V : Type} (v : View r V) (w : World S) :
    v.see (w.entered r) = v.see w :=
  v.blind w .resolving (w.runner r).working [.entered r]

/-- Considering a message comes to the same wherever the runner and what is seen are the same. -/
theorem considers_alike {V : Type} (v : View r V)
    (hspares : (w.runner r).Consults app (callWithin app depth) (Effect.Spares r))
    (hsees : (w.runner r).Consults app (callWithin app depth) (Effect.Sees v))
    {name : S.ModelName} (hmodel : (w.runner r).model = some name) (m : Message)
    {w' : World S} {working : Cursor} (hrunner : w'.runner r = { w.runner r with working })
    (hseen : v.see w' = v.see w) :
    let considered (w : World S) :=
      (((w.runner r).session app r name).considers app (callWithin app depth) m).run
        (w.inCall r .resolving (w.runner r).cursor [.entered r])
    (considered w').1 = (considered w).1 ∧ v.see (considered w').2 = v.see (considered w).2 := by
  intro considered
  have hsession : (w'.runner r).session app r name = (w.runner r).session app r name := by
    rw [hrunner]
    rfl
  have hcursor : (w'.runner r).cursor = (w.runner r).cursor := by rw [hrunner]
  have hbusy : Activity.resolving ≠ .idle := nofun
  have halike := View.alike_inCall hrunner hseen hbusy (w.runner r).cursor [.entered r]
  obtain ⟨hguard, hhook⟩ := hspares.session (fun _ _ _ => rfl) r hmodel
  obtain ⟨hguard', hhook'⟩ := hsees.session (fun _ _ _ h => ⟨rfl, h.seen⟩) r hmodel
  have hconsults : ((w.runner r).session app r name).Consults app (callWithin app depth)
      (Effect.InStep v) :=
    Session.consults_inStep (fun g hg => inStep_of_sees (hguard g hg) (hguard' g hg))
      fun step m => inStep_of_sees (hhook step m) (hhook' step m)
  obtain ⟨hsame, halike'⟩ := hconsults.considers (chained_inStep v) m _ _ halike
  unfold considered
  rw [hsession, hcursor]
  exact ⟨hsame.symm, halike'.seen.symm⟩

/-- **It comes to the same wherever the runner and what is seen are the same.** -/
theorem callWithin_alike {V : Type} (v : View r V)
    (hspares : (w.runner r).Consults app (callWithin app depth) (Effect.Spares r))
    (hsees : (w.runner r).Consults app (callWithin app depth) (Effect.Sees v))
    (huntriggered : Untriggered r w (callWithin app (depth + 1) r (.react m) w).2)
    {w' : World S} {working : Cursor} (hrunner : w'.runner r = { w.runner r with working })
    (hseen : v.see w' = v.see w) :
    (callWithin app (depth + 1) r (.react m) w').1 =
        (callWithin app (depth + 1) r (.react m) w).1 ∧
      v.see (callWithin app (depth + 1) r (.react m) w').2 =
        v.see (callWithin app (depth + 1) r (.react m) w).2 ∧
      Untriggered r w' (callWithin app (depth + 1) r (.react m) w').2 := by
  -- What a call does first depends on the runner only, so both calls go the same way.
  by_cases hidle : (w.runner r).activity = .idle
  · have hidle' : (w'.runner r).activity = .idle := by rw [hrunner]; exact hidle
    rcases (w.runner r).inactive_or with hinactive | ⟨hrunning, name, hmodel⟩
    · have hinactive' : (w'.runner r).running = false ∨ (w'.runner r).model = none := by
        rw [hrunner]
        exact hinactive
      rw [callWithin_of_inactive app depth m hidle hinactive,
        callWithin_of_inactive app depth m hidle' hinactive']
      refine ⟨rfl, ?_, untriggered_of_events [.left r, .entered r] rfl (by simp [Event.trigger?])⟩
      rw [v.see_left, v.see_left, v.see_entered, v.see_entered, hseen]
    · have hrunning' : (w'.runner r).running = true := by rw [hrunner]; exact hrunning
      have hmodel' : (w'.runner r).model = some name := by rw [hrunner]; exact hmodel
      rcases callWithin_of_considers app depth m hidle hrunning hmodel with ⟨-, h⟩ | ⟨hnot, hcall⟩
      · exact absurd huntriggered h
      · have hspares' : (w'.runner r).Consults app (callWithin app depth) (Effect.Spares r) := by
          rw [hrunner]
          exact ⟨hspares.guard, hspares.hook⟩
        obtain ⟨hsame, hseen'⟩ := considers_alike v hspares hsees hmodel m hrunner hseen
        obtain ⟨-, -, huntriggered'⟩ := considers_still hspares' hmodel' m
        rcases callWithin_of_considers app depth m hidle' hrunning' hmodel' with
          ⟨h, -⟩ | ⟨-, hcall'⟩
        · exact absurd (hsame.symm.trans h) hnot
        · rw [hcall, hcall']
          refine ⟨congrArg (Except.map _) hsame, ?_, huntriggered'⟩
          rw [v.see_left, v.see_left]
          exact hseen'
  · have hbusy' : (w'.runner r).activity ≠ .idle := by rw [hrunner]; exact hidle
    rw [callWithin_of_busy app (depth + 1) r (.react m) w hidle,
      callWithin_of_busy app (depth + 1) r (.react m) w' hbusy']
    refine ⟨?_, ?_, untriggered_of_events [_] rfl (by simp [Event.trigger?])⟩
    · change Except.error (RunnerError.nestedCall (w'.runner r).activity.label) = _
      rw [hrunner]
      rfl
    · change v.see (w'.note _) = v.see (w.note _)
      rw [v.see_note, v.see_note, hseen]

/-- A call that triggers nothing hands nothing to anybody, and if it offers something, it gives
nothing. -/
theorem untriggered_events (app : Application S) (depth : Nat) (m : Message)
    {events : List (Event S)}
    (hjournal : (callWithin app (depth + 1) r (.react m) w).2.journal = events ++ w.journal)
    (hnone : triggers r events = []) :
    publications r events = [] ∧ deliveries r events = [] ∧
      (offers r events ≠ [] → (callWithin app (depth + 1) r (.react m) w).1 = .ok none) := by
  by_cases hidle : (w.runner r).activity = .idle
  · obtain ⟨events', trace, hjournal', hown, hcourse⟩ :=
      callWithin_course app depth r (.react m) hidle
    obtain rfl : events' = events := List.append_cancel_right (hjournal'.symm.trans hjournal)
    rw [triggers_own, hown, filterMap_entered rfl rfl] at hnone
    rw [publications_own, deliveries_own, offers_own, hown, filterMap_entered rfl rfl,
      filterMap_entered rfl rfl, filterMap_entered rfl rfl]
    generalize (callWithin app (depth + 1) r (.react m) w).1 = result at hcourse ⊢
    cases hcourse with
    | idle m h => exact ⟨rfl, rfl, fun _ => rfl⟩
    | reacted hrunning hmodel h => exact h.untriggered hnone
  · rw [callWithin_of_busy app (depth + 1) r (.react m) w hidle] at hjournal
    have hrefused : [.refused r (w.runner r).activity.label] ++ w.journal = events ++ w.journal :=
      hjournal
    obtain rfl := List.append_cancel_right hrefused
    exact ⟨rfl, rfl, fun h => absurd rfl h⟩

/-- **A call that triggers nothing changes nothing.** The code that it consults, the guards of its
runner's model and its hook, leaves the runner alone. However the call ends, then, refused, with an
error or quietly: the runner is as before, with its model, its cursor, its actor and its log;
nothing was handed to its publisher or to an inbox; and if a step was offered the message, it was
suppressed and the call gives nothing. Wherever the runner is the same, and what the consulted code
sees, the same comes of the call, and again nothing is triggered. So as long as the call leaves what
is seen as it is, it can be repeated any number of times. -/
theorem untriggered_spec (app : Application S) (depth : Nat) (r : RunnerId S) (m : Message)
    {w : World S} {events : List (Event S)}
    (hjournal : (callWithin app (depth + 1) r (.react m) w).2.journal = events ++ w.journal)
    (hnone : triggers r events = [])
    (hspares : (w.runner r).Consults app (callWithin app depth) (Effect.Spares r)) :
    (∃ working, (callWithin app (depth + 1) r (.react m) w).2.runner r =
      { w.runner r with working }) ∧
    publications r events = [] ∧ deliveries r events = [] ∧
    (offers r events ≠ [] → (callWithin app (depth + 1) r (.react m) w).1 = .ok none) ∧
    ∀ {V : Type} (v : View r V),
      (w.runner r).Consults app (callWithin app depth) (Effect.Sees v) →
      (∀ w' working, w'.runner r = { w.runner r with working } → v.see w' = v.see w →
        (callWithin app (depth + 1) r (.react m) w').1 =
            (callWithin app (depth + 1) r (.react m) w).1 ∧
          Untriggered r w' (callWithin app (depth + 1) r (.react m) w').2) ∧
      (v.see (callWithin app (depth + 1) r (.react m) w).2 = v.see w → ∀ n,
        (callWithin app (depth + 1) r (.react m)
          ((fun w' => (callWithin app (depth + 1) r (.react m) w').2)^[n] w)).1 =
            (callWithin app (depth + 1) r (.react m) w).1) := by
  have huntriggered : Untriggered r w (callWithin app (depth + 1) r (.react m) w).2 :=
    ⟨events, hjournal, hnone⟩
  obtain ⟨hpublications, hdeliveries, hsuppressed⟩ := untriggered_events app depth m hjournal hnone
  refine ⟨callWithin_still hspares huntriggered, hpublications, hdeliveries, hsuppressed,
    fun {V} v hsees => ⟨fun w' working hrunner hseen => ?_, fun hunchanged n => ?_⟩⟩
  · obtain ⟨hsame, -, hagain⟩ := callWithin_alike v hspares hsees huntriggered hrunner hseen
    exact ⟨hsame, hagain⟩
  · -- Before each repetition, the runner and what is seen are as they were at first.
    have hrepeated : ∃ working,
        ((fun w' => (callWithin app (depth + 1) r (.react m) w').2)^[n] w).runner r =
          { w.runner r with working } ∧
        v.see ((fun w' => (callWithin app (depth + 1) r (.react m) w').2)^[n] w) = v.see w := by
      induction n with
      | zero => exact ⟨_, rfl, rfl⟩
      | succ n ih =>
        obtain ⟨working, hrunner, hseen⟩ := ih
        rw [Function.iterate_succ_apply']
        obtain ⟨-, hseen', hagain⟩ := callWithin_alike v hspares hsees huntriggered hrunner hseen
        obtain ⟨working', hrunner'⟩ := callWithin_still
          (by rw [hrunner]; exact ⟨hspares.guard, hspares.hook⟩) hagain
        refine ⟨working', ?_, hseen'.trans hunchanged⟩
        rw [hrunner', hrunner]
    obtain ⟨working, hrunner, hseen⟩ := hrepeated
    exact (callWithin_alike v hspares hsees huntriggered hrunner hseen).1

/-- If no more steps were triggered in the end than before, none was triggered meanwhile. -/
theorem triggers_eq_nil_of_same {w' : World S} {events : List (Event S)}
    (hjournal : w'.journal = events ++ w.journal)
    (hsame : triggers r w'.journal = triggers r w.journal) : triggers r events = [] := by
  unfold triggers at hsame ⊢
  rw [hjournal, readOff_append] at hsame
  exact List.append_right_eq_self.mp hsame

end Call

/-- The application's own state is in view. -/
def View.state (r : RunnerId S) : View r S.State := ⟨World.state, fun _ _ _ _ => rfl⟩

/-- Something was ordered, and has to be paid for. -/
def Shop.unpaid : World Shop.signature :=
  Shop.after [.call Shop.clerk (.run ()), .call Shop.clerk (.react Shop.order)]

/-- The assistant keeps the letters from the clerk, as many as come. In the shop, nothing else can
be ordered until the order is paid for, however often it is tried. -/
theorem untriggered_in_office_and_shop :
    ((∃ working, (call Office.application (Office.clerk 0) (.react Office.letter)
        Office.assisted).2.runner (Office.clerk 0) =
          { Office.assisted.runner (Office.clerk 0) with working }) ∧
      ∀ n, (call Office.application (Office.clerk 0) (.react Office.letter)
        ((fun w => (call Office.application (Office.clerk 0) (.react Office.letter) w).2)^[n]
          Office.assisted)).1 = .ok none) ∧
    (Shop.unpaid.runner Shop.clerk).cursor.frames ≠ [] ∧
    (∃ working, (call Shop.application Shop.clerk (.react Shop.order)
      Shop.unpaid).2.runner Shop.clerk = { Shop.unpaid.runner Shop.clerk with working }) ∧
    ∀ n, (call Shop.application Shop.clerk (.react Shop.order)
      ((fun w => (call Shop.application Shop.clerk (.react Shop.order) w).2)^[n]
        Shop.unpaid)).1 = .ok none := by
  refine ⟨?_, by decide +kernel, ?_⟩
  · obtain ⟨events, hjournal⟩ := callWithin_grows Office.application 2 (Office.clerk 0)
      (.react Office.letter) Office.assisted
    have hnone : triggers (Office.clerk 0) events = [] :=
      triggers_eq_nil_of_same hjournal.symm (by decide +kernel)
    have hspares : (Office.assisted.runner (Office.clerk 0)).Consults Office.application
        (callWithin Office.application 1) (Effect.Spares (Office.clerk 0)) :=
      ⟨fun _ _ g hg => absurd hg (Office.not_hasGuard _ g), fun _ _ _ _ _ _ => rfl⟩
    have hsees : (Office.assisted.runner (Office.clerk 0)).Consults Office.application
        (callWithin Office.application 1) (Effect.Sees (View.state (Office.clerk 0))) :=
      ⟨fun _ _ g hg => absurd hg (Office.not_hasGuard _ g), fun _ _ _ _ _ _ h => ⟨rfl, h.seen⟩⟩
    obtain ⟨hrunner, -, -, hsuppressed, hagain⟩ := untriggered_spec Office.application 1
      (Office.clerk 0) Office.letter hjournal.symm hnone hspares
    have hoffers : offers (Office.clerk 0) events ≠ [] := by
      intro hnothing
      have hread := readOff_append (Event.offer? (Office.clerk 0)) events Office.assisted.journal
      rw [hjournal, show readOff _ events = [] from hnothing, List.append_nil] at hread
      exact absurd hread (by decide +kernel)
    refine ⟨hrunner, fun n => ?_⟩
    exact ((hagain _ hsees).2 rfl n).trans (hsuppressed hoffers)
  · obtain ⟨events, hjournal⟩ := callWithin_grows Shop.application 1 Shop.clerk
      (.react Shop.order) Shop.unpaid
    have hnone : triggers Shop.clerk events = [] :=
      triggers_eq_nil_of_same hjournal.symm (by decide +kernel)
    have hspares : (Shop.unpaid.runner Shop.clerk).Consults Shop.application
        (callWithin Shop.application 0) (Effect.Spares Shop.clerk) := by
      refine ⟨fun _ _ g hg => ?_, fun name => name.elim⟩
      obtain rfl := Shop.eq_isOpen hg
      exact fun _ _ => rfl
    have hsees : (Shop.unpaid.runner Shop.clerk).Consults Shop.application
        (callWithin Shop.application 0) (Effect.Sees (View.state Shop.clerk)) := by
      refine ⟨fun _ _ g hg => ?_, fun name => name.elim⟩
      obtain rfl := Shop.eq_isOpen hg
      exact fun _ _ h => ⟨h.seen, h.seen⟩
    obtain ⟨hrunner, -, -, -, hagain⟩ := untriggered_spec Shop.application 0 Shop.clerk Shop.order
      hjournal.symm hnone hspares
    have hquiet : (call Shop.application Shop.clerk (.react Shop.order) Shop.unpaid).1 =
        .ok none := by decide +kernel
    exact ⟨hrunner, fun n => ((hagain _ hsees).2 (by decide +kernel) n).trans hquiet⟩

end UseCaseEngine
