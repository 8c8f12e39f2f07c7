import UseCaseEngine.Example.Shop
import UseCaseEngine.Proofs.Course
import UseCaseEngine.Proofs.Unseen
import UseCaseEngine.Proofs.Valuation

/-!
# Inspecting and reacting

A runner can be asked which steps could react to a message of some type (`steps_that_can_react_to`,
`can_react_to`). It answers from outside of a call: it is not busy, and what its guards ask for is
answered as deep as calls may nest. When it reacts, it is busy, and one level of nesting is used up.
Guards that do nothing cannot tell the difference, so what is found is the same.

Out of scope: inspections from inside of a call, which look at the committed cursor and not at the
one of the call; and runners that were stopped, for which see `inquire_stopped`.

* `Executed.offers`, `Continued.offers`: a message is offered to one step only, whatever follows.
* `evalGuard_inCall`: a guard that does nothing comes to the same when the runner is in a call.
* **`inspection_agrees`**: a reaction comes to what the inspection just before it promises.
-/

namespace UseCaseEngine

variable {S : Signature}

/-! ## What is offered -/

theorem offers_own (r : RunnerId S) (events : List (Event S)) :
    offers r events = (own r events).filterMap (Event.offer? r) :=
  readOff_own (fun e he => by cases e <;> simp_all [Event.session?, Event.offer?]) events

theorem triggers_own (r : RunnerId S) (events : List (Event S)) :
    triggers r events = (own r events).filterMap (Event.trigger? r) :=
  readOff_own (fun _ => foreign_trigger?) events

/-- The message is offered on account of what steps did before: it makes the system go on, or it is
why a step failed. -/
def FollowsUp (r : RunnerId S) (events : List (Event S)) (m : Message) : Prop :=
  m = .systemEvent ∨
    ∃ step trigger failure state, .reacted r step trigger (.error failure) state ∈ events ∧
      m = failure.condition

theorem FollowsUp.mono {r : RunnerId S} {events more : List (Event S)} {m : Message}
    (h : FollowsUp r events m) (hsub : events ⊆ more) : FollowsUp r more m := by
  rcases h with h | ⟨step, trigger, failure, state, hreacted, h⟩
  · exact .inl h
  · exact .inr ⟨step, trigger, failure, state, hsub hreacted, h⟩

/-- All that is offered follows up. -/
def OffersFollowUp (r : RunnerId S) (events : List (Event S)) : Prop :=
  ∀ o ∈ events.filterMap (Event.offer? r), FollowsUp r events o.2

/-- The message is offered to the step, and all that is offered later follows up. -/
def OffersFirst (r : RunnerId S) (step : StepId) (m : Message) (events : List (Event S)) : Prop :=
  ∃ later, events.filterMap (Event.offer? r) = (step, m) :: later ∧
    ∀ o ∈ later, FollowsUp r events o.2

theorem OffersFirst.followUp {r : RunnerId S} {step : StepId} {m : Message}
    {events : List (Event S)} (h : OffersFirst r step m events) (hm : FollowsUp r events m) :
    OffersFollowUp r events := by
  obtain ⟨later, hoffers, hlater⟩ := h
  intro o ho
  rw [hoffers] at ho
  rcases List.mem_cons.mp ho with rfl | ho
  · exact hm
  · exact hlater o ho

section Append

variable {r : RunnerId S} {before after : List (Event S)}

theorem OffersFollowUp.append (hbefore : OffersFollowUp r before)
    (hafter : OffersFollowUp r after) : OffersFollowUp r (before ++ after) := by
  intro o ho
  rw [List.filterMap_append] at ho
  rcases List.mem_append.mp ho with ho | ho
  · exact (hbefore o ho).mono (List.subset_append_left before after)
  · exact (hafter o ho).mono (List.subset_append_right before after)

theorem OffersFirst.append {step : StepId} {m : Message} (hbefore : OffersFirst r step m before)
    (hafter : OffersFollowUp r after) : OffersFirst r step m (before ++ after) := by
  obtain ⟨later, hoffers, hlater⟩ := hbefore
  refine ⟨later ++ after.filterMap (Event.offer? r), ?_, fun o ho => ?_⟩
  · rw [List.filterMap_append, hoffers, List.cons_append]
  · rcases List.mem_append.mp ho with ho | ho
    · exact (hlater o ho).mono (List.subset_append_left before after)
    · exact (hafter o ho).mono (List.subset_append_right before after)

/-- Nothing is offered by events of other kinds. -/
theorem offersFollowUp_of_nil (h : before.filterMap (Event.offer? r) = []) :
    OffersFollowUp r before := by
  intro o ho
  rw [h] at ho
  cases ho

end Append

section Rules

variable {model : Model (code S)} {r : RunnerId S} {step : Step (code S)} {m : Message}
  {events : List (Event S)}

theorem Found.offers {type : MessageType} {scope : Scope}
    {result : Except RunnerError (Option (Step (code S)))}
    (h : Found model r type scope result events) : events.filterMap (Event.offer? r) = [] := by
  cases h <;> rfl

theorem Found.triggers {type : MessageType} {scope : Scope}
    {result : Except RunnerError (Option (Step (code S)))}
    (h : Found model r type scope result events) : events.filterMap (Event.trigger? r) = [] := by
  cases h <;> rfl

theorem Concluded.triggers {output : Output} {result : Except RunnerError Reacted}
    (h : Concluded model r step m output result events) :
    events.filterMap (Event.trigger? r) = [] := by
  cases h <;> rfl

theorem Concluded.offers {output : Output} {result : Except RunnerError Reacted}
    (h : Concluded model r step m output result events) :
    events.filterMap (Event.offer? r) = [] := by
  cases h <;> rfl

/-- A step that is offered a message may fail, and then it is noted that it did. -/
theorem Offered.offers {result : Except RunnerError Reacted}
    (h : Offered model r step m result events) :
    events.filterMap (Event.offer? r) = [(step.id, m)] ∧
      ∀ failure, result = .ok (.failed failure) →
        ∃ state, .reacted r step.id m (.error failure) state ∈ events := by
  cases h with
  | suppressed => exact ⟨by simp [Event.offer?], fun _ h => by cases h⟩
  | @reacted output result events raw state h =>
    refine ⟨?_, fun failure hresult => ?_⟩
    · rw [List.filterMap_append, h.offers]
      simp [Event.offer?]
    · cases h with
      | failed again =>
        cases hresult
        exact ⟨state, by simp⟩
      | dangling hrefers message answers => cases hresult
      | done hrefers hinbox answers => cases hresult
      | delivered hrefers hinbox message answers reply => cases reply <;> cases hresult

theorem Offered.offersFirst {result : Except RunnerError Reacted}
    (h : Offered model r step m result events) : OffersFirst r step.id m events :=
  ⟨[], h.offers.1, fun _ ho => absurd ho List.not_mem_nil⟩

/-- Handling a failure offers nothing but what the failure is about. -/
theorem Handled.offers {failure : Failure} {result : Except RunnerError (Option Message)}
    (h : Handled model r step failure result events) :
    ∀ o ∈ events.filterMap (Event.offer? r), o.2 = failure.condition := by
  have hboth {handler : Step (code S)} {found offered : List (Event S)}
      {result : Except RunnerError Reacted}
      (hfound : Found model r failure.type .failure (.ok (some handler)) found)
      (hoffered : Offered model r handler failure.condition result offered) :
      ∀ o ∈ (found ++ offered).filterMap (Event.offer? r), o.2 = failure.condition := by
    rw [List.filterMap_append, hfound.offers, hoffered.offers.1]
    intro o ho
    rw [List.mem_singleton.mp ho]
  cases h with
  | unresolved hfound => simp [hfound.offers]
  | uncaught hfound => simp [hfound.offers]
  | suppressed hfound hoffered => exact hboth hfound hoffered
  | broken hfound hoffered => exact hboth hfound hoffered
  | failed hfound hoffered => exact hboth hfound hoffered
  | handled hfound hoffered => exact hboth hfound hoffered

/-- **The message that a step is executed with is offered to that step.** If the step fails, what
its failure is about may be offered to another one. -/
theorem Executed.offers {result : Except RunnerError (Option (Option Message))}
    (h : Executed model r step m result events) : OffersFirst r step.id m events := by
  cases h with
  | broken h => exact h.offersFirst
  | suppressed h => exact h.offersFirst
  | published h => exact h.offersFirst
  | uncaught hhandler h => exact h.offersFirst
  | @failed failure result offered handled hhandler hoffered h =>
    obtain ⟨hoffers, hfailed⟩ := hoffered.offers
    obtain ⟨state, hreacted⟩ := hfailed failure rfl
    refine ⟨handled.filterMap (Event.offer? r), ?_, fun o ho => .inr ?_⟩
    · rw [List.filterMap_append, hoffers, List.singleton_append]
    · exact ⟨step.id, m, failure, state, List.mem_append_left handled hreacted, h.offers o ho⟩

theorem Published.offers {installed : Bool} {message : Option Message}
    (h : Published r installed message events) : events.filterMap (Event.offer? r) = [] := by
  cases h <;> rfl

theorem Published.triggers {installed : Bool} {message : Option Message}
    (h : Published r installed message events) : events.filterMap (Event.trigger? r) = [] := by
  cases h <;> rfl

/-- **All that is offered while system steps are executed follows up**, by induction on the steps
that are executed. -/
theorem Continued.offers {installed : Bool} {limit left : Nat} {pending : Option Message}
    {result : CallResult} (h : Continued model r installed limit left pending result events) :
    OffersFollowUp r events := by
  have hsystem {step : Step (code S)} {found executed : List (Event S)}
      {result : Except RunnerError (Option (Option Message))}
      (hfound : Found model r .systemEvent .normal (.ok (some step)) found)
      (h : Executed model r step .systemEvent result executed) :
      OffersFollowUp r (found ++ executed) :=
    (offersFollowUp_of_nil hfound.offers).append (h.offers.followUp (.inl rfl))
  induction h with
  | unresolved hfound => exact offersFollowUp_of_nil hfound.offers
  | settled hfound => exact offersFollowUp_of_nil hfound.offers
  | exhausted hfound => exact offersFollowUp_of_nil hfound.offers
  | broken hfound h => exact hsystem hfound h
  | suppressed hfound h => exact hsystem hfound h
  | executed hfound h hpublished hrest ih =>
    rw [← List.append_assoc]
    exact (hsystem hfound h).append ((offersFollowUp_of_nil hpublished.offers).append ih)

end Rules

/-! ## What a session does about the step that it resolved -/

section Session

variable (app : Application S) (calls : Calls S) (s : Session S)

/-- Executes a step and continues. -/
def Session.proceed (step : Step (code S)) (m : Message) : Attempt S (Option Message) := do
  match ← s.execute app calls step m with
  | none => return none
  | some message => s.continueWith app calls s.limit message

theorem Session.react_eq (m : Message) :
    s.react app calls m = (do
      match ← s.resolve app calls m.type .normal with
      | none => return none
      | some step => s.proceed app calls step m) := rfl

variable {calls}

theorem proceed_offers
    (hperform : ∀ q, Effect.Within (Undisturbed s.runner) (perform app calls q)) (installed : Bool)
    (step : Step (code S)) (m : Message) :
    Effect.Tells s.runner installed (s.proceed app calls step m).run fun _ events =>
      OffersFirst s.runner step.id m events := by
  unfold Session.proceed
  refine Attempt.tells_bind (execute_executed app s hperform installed step m)
    (fun e events h => h.offers) fun message executed h => ?_
  cases message with
  | none => exact Effect.tells_pure (by rw [List.append_nil]; exact h.offers)
  | some message =>
    exact (continueWith_continued app s hperform installed s.limit message).mono
      fun result events hrest => h.offers.append hrest.offers

end Session

/-! ## A world in a call -/

/-- The world while the runner is in a call that did nothing so far but note some events. -/
def World.inCall (w : World S) (r : RunnerId S) (activity : Activity) (working : Cursor)
    (events : List (Event S)) : World S :=
  { w.setRunner r { w.runner r with activity, working } with journal := events ++ w.journal }

/-- User code cannot see that the runner is in a call. -/
def Unseen.inCall (activity : Activity) (working : Cursor) : Unseen :=
  { activity := fun _ => activity, working := fun _ => working }

section InCall

variable (r : RunnerId S) (activity : Activity) (working : Cursor) (events : List (Event S))

theorem World.runner_inCall (w : World S) :
    (w.inCall r activity working events).runner r = { w.runner r with activity, working } :=
  (w.runner_unseen r (.inCall activity working) events r).trans (if_pos rfl)

/-- A guard that notes nothing does the same in a call. -/
theorem evalGuard_inCall (app : Application S) {calls : Calls S}
    (hnoted : ∀ r c w, (calls r c w).2.journal ≠ w.journal)
    (hgrows : ∀ r c, Effect.Within Grows (calls r c)) (calls' : Calls S)
    (g : Guard S) {w : World S} (h : (evalGuard app calls g w).2.journal = w.journal) :
    evalGuard app calls' g (w.inCall r activity working events) =
      ((evalGuard app calls g w).1,
        (evalGuard app calls g w).2.inCall r activity working events) :=
  evalGuard_unseen r (.inCall activity working) events app hnoted hgrows calls' g h

end InCall

/-- **A call is always noted**, admitted or refused. -/
theorem callWithin_noted (app : Application S) (depth : Nat) (r : RunnerId S) (c : Call S)
    (w : World S) : (callWithin app depth r c w).2.journal ≠ w.journal := by
  have hrefuse : (refuse r w).2.journal ≠ w.journal := List.cons_ne_self _ _
  cases depth with
  | zero => exact hrefuse
  | succ depth =>
    by_cases hidle : (w.runner r).activity = .idle
    · -- It is noted at least that the call was entered.
      obtain ⟨events, trace, hjournal, hown, -⟩ := callWithin_course app depth r c hidle
      intro hsame
      rw [hjournal] at hsame
      rw [List.append_left_eq_self.mp hsame] at hown
      cases hown
    · rw [callWithin_of_busy app (depth + 1) r c w hidle]
      exact hrefuse

/-! ## Inspecting and reacting -/

section Inspection

variable (app : Application S)

/-- Evaluating the guards of the runner's model changes nothing. Nothing happens meanwhile either,
so no guard calls a runner: one that is in a call refuses what it takes otherwise. -/
def GuardsKeep (calls : Calls S) (r : RunnerId S) (w : World S) : Prop :=
  ∀ name, (w.runner r).model = some name →
    ∀ g, (app.model name).HasGuard g → (evalGuard app calls g w).2 = w

variable (r : RunnerId S)

/-- A reaction to a message, and what happened meanwhile, are as an inspection says. -/
def AsInspected (x : Runner S) (m : Message) (result : CallResult) (events : List (Event S)) :
    Except RunnerError (List String) → Prop
  | .error e => result = .error e ∧ offers r events = [] ∧ triggers r events = []
  | .ok [] => result = .ok none ∧ offers r events = [] ∧ triggers r events = []
  | .ok [name] =>
    ∃ model step later, x.model = some model ∧ step ∈ (app.model model).steps ∧
      step.name = name ∧ offers r events = (step.id, m) :: later ∧
        ∀ o ∈ later, FollowsUp r events o.2
  | .ok names =>
    result = .error (.ambiguousReaction m.type.name names) ∧ offers r events = [] ∧
      triggers r events = []

variable {app r}

/-- An inspection whose guards do nothing tells what their answers let pass, and does nothing. -/
theorem inquire_of_quiet {calls : Calls S} {w : World S} (hkeep : GuardsKeep app calls r w)
    {name : S.ModelName} (hmodel : (w.runner r).model = some name) (type : MessageType) :
    inquire app calls ⟨r, type⟩ w =
      ((candidates (m := Id) (fun g => (evalGuard app calls g w).1) (app.model name)
        (w.runner r).cursor (w.runner r).actor type .normal).run.map
          fun steps => steps.map (·.name), w) := by
  unfold inquire
  rw [Effect.run_bind]
  dsimp only [Effect.runner]
  rw [hmodel]
  dsimp only
  rw [Effect.run_bind, candidates_of_quiet _ _ _ _ (hkeep name hmodel)]
  rfl

/-- **In a call, resolution finds what the inspection found before.** -/
theorem exists_found {depth : Nat} {w : World S}
    (hkeep : GuardsKeep app (callWithin app (depth + 1)) r w) {name : S.ModelName}
    (hmodel : (w.runner r).model = some name) (type : MessageType) (events : List (Event S)) :
    ∃ found : Except RunnerError (List (Step (code S))),
      inquire app (callWithin app (depth + 1)) ⟨r, type⟩ w =
        (found.map fun steps => steps.map (·.name), w) ∧
      (candidates (evalGuard app (callWithin app depth)) (app.model name) (w.runner r).cursor
        (w.runner r).actor type .normal).run
          (w.inCall r .resolving (w.runner r).cursor events) =
        (found, w.inCall r .resolving (w.runner r).cursor events) ∧
      ∀ steps, found = .ok steps → steps.Sublist (app.model name).steps := by
  have hin (g : Guard S) (hg : (app.model name).HasGuard g) :
      evalGuard app (callWithin app depth) g
          (w.inCall r .resolving (w.runner r).cursor events) =
        ((evalGuard app (callWithin app (depth + 1)) g w).1,
          w.inCall r .resolving (w.runner r).cursor events) := by
    have hg := hkeep name hmodel g hg
    rw [evalGuard_inCall r .resolving (w.runner r).cursor events app
      (callWithin_noted app (depth + 1)) (callWithin_grows app (depth + 1)) _ g
      (congrArg World.journal hg), hg]
  refine ⟨(candidates (m := Id) (fun g => (evalGuard app (callWithin app (depth + 1)) g w).1)
    (app.model name) (w.runner r).cursor (w.runner r).actor type .normal).run,
    inquire_of_quiet hkeep hmodel type, ?_, fun steps hsteps => candidates_sublist _ hsteps⟩
  · have hquiet (g : Guard S) (hg : (app.model name).HasGuard g) := congrArg Prod.snd (hin g hg)
    have hsame (g : Guard S) (hg : (app.model name).HasGuard g) := congrArg Prod.fst (hin g hg)
    rw [candidates_of_quiet _ _ _ _ hquiet, candidates_congr _ _ _ _ hsame]

/-- What a session does about a message is decided by the candidates. -/
theorem Session.react_of_candidates (app : Application S) (s : Session S) (calls : Calls S)
    (m : Message) (w : World S) (found : Except RunnerError (List (Step (code S)))) :
    (candidates (evalGuard app calls) s.model (w.runner s.runner).working
      (w.runner s.runner).actor m.type .normal).run w = (found, w) →
    (s.react app calls m).run w =
      match found with
      | .error e => (.error e, w)
      | .ok [] => (.ok none, w)
      | .ok [step] => (s.proceed app calls step m).run (w.note (.resolved s.runner step.id .normal
          (w.runner s.runner).working (w.runner s.runner).actor w.state))
      | .ok steps => (.error (.ambiguousReaction m.type.name (steps.map (·.name))), w) := by
  intro h
  rw [Session.react_eq, Attempt.run_bind, resolve_of_candidates, h]
  rcases found with e | _ | ⟨step, _ | ⟨other, rest⟩⟩ <;> rfl

/-- The session of a call on a runner that runs the model. -/
def Runner.session (app : Application S) (r : RunnerId S) (x : Runner S) (name : S.ModelName) :
    Session S where
  runner := r
  model := app.model name
  hook := (x.hook.map app.hook).getD Hook.callThrough
  limit := x.settings.maxContinuations.toNat

/-- **A running runner reacts in a session** that starts from its cursor. -/
theorem callWithin_react (app : Application S) (depth : Nat) (m : Message) {w : World S}
    (hidle : (w.runner r).activity = .idle) (hrunning : (w.runner r).running = true)
    {name : S.ModelName} (hmodel : (w.runner r).model = some name) :
    callWithin app (depth + 1) r (.react m) w =
      (((((w.runner r).session app r name).react app (callWithin app depth) m).run
        (w.inCall r .resolving (w.runner r).cursor [.entered r])).1,
      ((((w.runner r).session app r name).react app (callWithin app depth) m).run
        (w.inCall r .resolving (w.runner r).cursor [.entered r])).2.left r) := by
  have hopen : openSession app r name (w.entered r) = ((w.runner r).session app r name,
      w.inCall r .resolving (w.runner r).cursor [.entered r]) := by
    have hworld : (w.entered r).setRunner r { (w.entered r).runner r with
        working := ((w.entered r).runner r).cursor } =
          w.inCall r .resolving (w.runner r).cursor [.entered r] := by
      rw [World.runner_entered]
      exact congrArg (fun x : World S => { x with journal := .entered r :: w.journal })
        (w.setRunner_setRunner r _ _)
    have hrunner := World.runner_inCall r .resolving (w.runner r).cursor [.entered r] w
    rw [← hworld] at hrunner ⊢
    unfold openSession Runner.session
    rw [Effect.run_bind, Effect.run_bind]
    dsimp only [Effect.runner, Effect.modifyRunner]
    rw [hrunner]
    rfl
  rw [callWithin_of_idle app depth r (.react m) hidle, occupy_eq,
    serve_of_running hrunning hmodel hopen]

/-- What happened in a call, without the resolution that it began with, is what its first step was
offered and what follows. -/
theorem AsInspected.of_proceeded {x : Runner S} {m : Message} {result : CallResult}
    {model : S.ModelName} {step : Step (code S)} {events : List (Event S)} {c : Cursor}
    {actor : String} {state : S.State} (hmodel : x.model = some model)
    (hstep : step ∈ (app.model model).steps) (h : OffersFirst r step.id m (own r events)) :
    AsInspected app r x m result
      (.left r :: (events ++ [.resolved r step.id .normal c actor state, .entered r]))
      (.ok [step.name]) := by
  obtain ⟨later, hoffers, hlater⟩ := h
  have hbefore : own r [.resolved r step.id .normal c actor state, .entered r] =
      [.entered r, .resolved r step.id .normal c actor state] := by
    simp [own, readOff, Event.session?]
  refine ⟨model, step, later, hmodel, hstep, rfl, ?_, fun o ho => ?_⟩
  · rw [offers_own, ← List.singleton_append, own_append, own_append, hbefore, own_singleton rfl,
      List.filterMap_append, List.filterMap_append, hoffers]
    exact congrArg ((step.id, m) :: ·) (List.append_nil later)
  · refine (hlater o ho).mono fun e he => List.mem_cons_of_mem _ (List.mem_append_left _ ?_)
    exact own_subset events he

/-- A running runner reacts to a message as the candidates say that it finds in the call. -/
theorem exists_asInspected_of_found {depth : Nat} {m : Message} {w : World S}
    (hidle : (w.runner r).activity = .idle) (hrunning : (w.runner r).running = true)
    {name : S.ModelName} (hmodel : (w.runner r).model = some name)
    {found : Except RunnerError (List (Step (code S)))}
    (hfound : (candidates (evalGuard app (callWithin app depth)) (app.model name)
      (w.runner r).cursor (w.runner r).actor m.type .normal).run
        (w.inCall r .resolving (w.runner r).cursor [.entered r]) =
      (found, w.inCall r .resolving (w.runner r).cursor [.entered r]))
    (hsteps : ∀ steps, found = .ok steps → steps ⊆ (app.model name).steps) :
    ∃ events, (callWithin app (depth + 1) r (.react m) w).2.journal = events ++ w.journal ∧
      AsInspected app r (w.runner r) m (callWithin app (depth + 1) r (.react m) w).1 events
        (found.map fun steps => steps.map (·.name)) := by
  obtain ⟨s, rfl, hsmodel, hresult, hjournal⟩ : ∃ s : Session S, s.runner = r ∧
      s.model = app.model name ∧
      (callWithin app (depth + 1) r (.react m) w).1 =
        ((s.react app (callWithin app depth) m).run
          (w.inCall r .resolving (w.runner r).cursor [.entered r])).1 ∧
      (callWithin app (depth + 1) r (.react m) w).2.journal =
        .left r :: ((s.react app (callWithin app depth) m).run
          (w.inCall r .resolving (w.runner r).cursor [.entered r])).2.journal := by
    refine ⟨(w.runner r).session app r name, rfl, rfl, ?_, ?_⟩ <;>
      rw [callWithin_react app depth m hidle hrunning hmodel]
    rfl
  have hrunner := World.runner_inCall s.runner .resolving (w.runner s.runner).cursor
    [.entered s.runner] w
  have hentered : (w.inCall s.runner .resolving (w.runner s.runner).cursor
    [.entered s.runner]).journal = .entered s.runner :: w.journal := rfl
  -- How the call came to the world in which it looks is not needed any more.
  generalize w.inCall s.runner .resolving (w.runner s.runner).cursor [.entered s.runner] = w₁
    at hfound hresult hjournal hrunner hentered
  have hquiet : .left s.runner :: w₁.journal =
      [.left s.runner, .entered s.runner] ++ w.journal := by
    rw [hentered]
    rfl
  rw [← hsmodel] at hfound
  rw [Session.react_of_candidates app s (callWithin app depth) m w₁ found
    (by rw [hrunner]; exact hfound)] at hresult hjournal
  rcases found with e | _ | ⟨step, _ | ⟨other, rest⟩⟩
  · exact ⟨_, hjournal.trans hquiet, hresult, rfl, rfl⟩
  · exact ⟨_, hjournal.trans hquiet, hresult, rfl, rfl⟩
  · have hstep : step ∈ (app.model name).steps := hsteps [step] rfl (List.mem_singleton_self step)
    have hready : Ready s.runner false (w₁.note (.resolved s.runner step.id .normal
        (w₁.runner s.runner).working (w₁.runner s.runner).actor w₁.state)) := by
      refine ⟨?_, nofun⟩
      change (w₁.runner s.runner).activity ≠ .idle
      rw [hrunner]
      exact nofun
    obtain ⟨-, events, hevents, hfirst⟩ :=
      proceed_offers app s (perform_undisturbed app s.runner depth) false step m _ hready
    refine ⟨.left s.runner :: (events ++ [.resolved s.runner step.id .normal
      (w₁.runner s.runner).working (w₁.runner s.runner).actor w₁.state, .entered s.runner]), ?_,
      .of_proceeded hmodel hstep hfirst⟩
    rw [hjournal]
    dsimp only
    rw [hevents]
    simp [World.note, hentered]
  · exact ⟨_, hjournal.trans hquiet, hresult, rfl, rfl⟩

/-- Without a model nothing is found, and nothing reacts. -/
theorem exists_asInspected_of_unbound (app : Application S) (depth : Nat) (m : Message)
    {w : World S} (hidle : (w.runner r).activity = .idle) (hmodel : (w.runner r).model = none) :
    ∃ events, (callWithin app (depth + 1) r (.react m) w).2.journal = events ++ w.journal ∧
      AsInspected app r (w.runner r) m (callWithin app (depth + 1) r (.react m) w).1 events
        (.ok []) := by
  obtain ⟨events, trace, hjournal, hown, hcourse⟩ :=
    callWithin_course app depth r (.react m) hidle
  refine ⟨events, hjournal, ?_⟩
  generalize (callWithin app (depth + 1) r (.react m) w).1 = result at hcourse ⊢
  cases hcourse with
  | idle m h =>
    refine ⟨rfl, ?_, ?_⟩
    · rw [offers_own, hown]
      rfl
    · rw [triggers_own, hown]
      rfl
  | reacted _ hbound _ =>
    rw [hmodel] at hbound
    cases hbound

theorem inquire_of_unbound (app : Application S) (calls : Calls S) (type : MessageType)
    {w : World S} (hmodel : (w.runner r).model = none) :
    inquire app calls ⟨r, type⟩ w = (.ok [], w) := by
  unfold inquire
  rw [Effect.run_bind]
  dsimp only [Effect.runner]
  rw [hmodel]
  rfl

theorem canReact_of_inquire {calls : Calls S} {type : MessageType} {w : World S}
    {asked : Except RunnerError (List String)} (h : inquire app calls ⟨r, type⟩ w = (asked, w)) :
    canReact app calls ⟨r, type⟩ w = (asked.map fun names => decide (names ≠ []), w) := by
  unfold canReact
  rw [Effect.run_bind, h]
  rcases asked with e | _ | ⟨name, rest⟩ <;> rfl

/-- **A reaction is as the inspection just before it says.** On a runner that runs and is not in a
call, whose guards do nothing, the inspection changes nothing, and it gives the names of some steps
in the order of the model, or an error. The reaction fails with that error; without any step it is
quiet; a single step is the first one that is offered the message, and the only one, since all else
that is offered follows up; and several steps are an error. -/
theorem inspection_agrees (app : Application S) (depth : Nat) (r : RunnerId S) (m : Message)
    {w : World S} (hidle : (w.runner r).activity = .idle) (hrunning : (w.runner r).running = true)
    (hkeep : GuardsKeep app (callWithin app (depth + 1)) r w) :
    ∃ asked events, inquire app (callWithin app (depth + 1)) ⟨r, m.type⟩ w = (asked, w) ∧
      canReact app (callWithin app (depth + 1)) ⟨r, m.type⟩ w =
        (asked.map fun names => decide (names ≠ []), w) ∧
      (∀ names model, asked = .ok names → (w.runner r).model = some model →
        names.Sublist ((app.model model).steps.map (·.name))) ∧
      (callWithin app (depth + 1) r (.react m) w).2.journal = events ++ w.journal ∧
      AsInspected app r (w.runner r) m (callWithin app (depth + 1) r (.react m) w).1 events
        asked := by
  cases hmodel : (w.runner r).model with
  | none =>
    have hasked := inquire_of_unbound app (callWithin app (depth + 1)) m.type hmodel
    obtain ⟨events, hjournal, h⟩ := exists_asInspected_of_unbound app depth m hidle hmodel
    exact ⟨.ok [], events, hasked, canReact_of_inquire hasked, nofun, hjournal, h⟩
  | some name =>
    obtain ⟨found, hasked, hfound, hsublist⟩ := exists_found hkeep hmodel m.type [.entered r]
    obtain ⟨events, hjournal, h⟩ := exists_asInspected_of_found hidle hrunning hmodel hfound
      fun steps hsteps => (hsublist steps hsteps).subset
    refine ⟨_, events, hasked, canReact_of_inquire hasked, ?_, hjournal, h⟩
    intro names model hnames hname
    cases hname
    cases found with
    | error e => cases hnames
    | ok steps =>
      cases hnames
      exact (hsublist steps rfl).map _

end Inspection

/-- The only guard in the shop asks whether the warehouse is open. -/
theorem Shop.eq_isOpen {g : Guard Shop.signature}
    (h : (Shop.application.model ()).HasGuard g) : g = Shop.isOpen := by
  have hguards : (Shop.application.model ()).steps.map (·.guard) =
      some Shop.isOpen :: List.replicate 7 none := rfl
  have hconditions : (Shop.application.model ()).steps.map (·.repeatWhile) =
      List.replicate 8 none := rfl
  have hflows : (Shop.application.model ()).flows.map (·.guard) = List.replicate 4 none := rfl
  rcases h with ⟨s, hs, h | h⟩ | ⟨f, hf, h⟩
  · have hmem := hguards ▸ List.mem_map_of_mem (f := Step.guard) hs
    simpa [h] using hmem
  · have hmem := hconditions ▸ List.mem_map_of_mem (f := Step.repeatWhile) hs
    simp [h] at hmem
  · have hmem := hflows ▸ List.mem_map_of_mem (f := Flow.guard) hf
    simp [h] at hmem

/-- The shop is open, so an order is taken, and what is asked about it beforehand says so. -/
theorem inspection_on_order :
    ((Shop.after [.call Shop.clerk (.run ())]).runner Shop.clerk).activity = .idle ∧
      ((Shop.after [.call Shop.clerk (.run ())]).runner Shop.clerk).running = true ∧
      GuardsKeep Shop.application (callWithin Shop.application 1) Shop.clerk
        (Shop.after [.call Shop.clerk (.run ())]) ∧
    ∃ events, inquire Shop.application (callWithin Shop.application 1)
        ⟨Shop.clerk, Shop.order.type⟩ (Shop.after [.call Shop.clerk (.run ())]) =
          (.ok ["Order"], Shop.after [.call Shop.clerk (.run ())]) ∧
      AsInspected Shop.application Shop.clerk
        ((Shop.after [.call Shop.clerk (.run ())]).runner Shop.clerk) Shop.order
        (callWithin Shop.application 1 Shop.clerk (.react Shop.order)
          (Shop.after [.call Shop.clerk (.run ())])).1 events (.ok ["Order"]) := by
  have hidle : ((Shop.after [.call Shop.clerk (.run ())]).runner Shop.clerk).activity = .idle := by
    decide +kernel
  have hrunning : ((Shop.after [.call Shop.clerk (.run ())]).runner Shop.clerk).running = true := by
    decide +kernel
  have hkeep : GuardsKeep Shop.application (callWithin Shop.application 1) Shop.clerk
      (Shop.after [.call Shop.clerk (.run ())]) := by
    intro name _ g hg
    obtain rfl := Shop.eq_isOpen hg
    rfl
  refine ⟨hidle, hrunning, hkeep, ?_⟩
  obtain ⟨asked, events, hasked, -, -, -, h⟩ :=
    inspection_agrees Shop.application 0 Shop.clerk Shop.order hidle hrunning hkeep
  have hnames : (inquire Shop.application (callWithin Shop.application 1)
      ⟨Shop.clerk, Shop.order.type⟩ (Shop.after [.call Shop.clerk (.run ())])).1.toOption =
        some ["Order"] := by decide +kernel
  rw [hasked] at hnames
  cases asked with
  | error e => cases hnames
  | ok names =>
    cases hnames
    exact ⟨events, hasked, h⟩

end UseCaseEngine
