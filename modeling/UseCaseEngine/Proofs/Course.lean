import UseCaseEngine.Proofs.Account

/-!
# The course of a call

What a call notes of itself, in order, follows rules: a step is resolved and offered, it may be
triggered and react, then it takes its turn, what it published may be delivered, and so on with the
next one. The relations below are these rules, one for each part of a session; each relates what a
part comes to with what is noted meanwhile. `Effect.Tells` is the program logic by which the parts
of a session are shown to obey them, whatever user code does.

* `Found`, `Offered`, `Concluded`: resolving a step (`resolve`), offering it to the hook (`around`),
  and what comes of it once it has reacted (`apply_reaction`, `deliver`).
* `Handled`, `Executed`: handing over a failure (`route_exception`), and all of `execute`.
* `Continued`, `Answered`, `Begun`: going on with system steps (`continue_automatically`), reacting
  to a message (`react`), and running a model (`run`).
* `Course`: how a call that was admitted may go.
* **`callWithin_course`**: this is how every call goes, at any depth.
* `readOff_own`: what is read off the events of a runner's calls can be read off their course.
-/

namespace UseCaseEngine

variable {S : Signature}

/-! ## The events of a runner's calls -/

/-- The events of a runner's calls, in order. -/
def own (r : RunnerId S) : List (Event S) → List (Event S) :=
  readOff fun e => if e.session? = some r then some e else none

section Own

variable {r : RunnerId S}

theorem own_append (new old : List (Event S)) : own r (new ++ old) = own r old ++ own r new :=
  readOff_append _ _ _

theorem own_of_foreign {events : List (Event S)} (h : ∀ e ∈ events, e.session? ≠ some r) :
    own r events = [] :=
  readOff_eq_nil_iff.mpr fun e he => if_neg (h e he)

theorem own_singleton {e : Event S} (h : e.session? = some r) : own r [e] = [e] := by
  simp [own, readOff, h]

theorem own_subset (events : List (Event S)) : own r events ⊆ events := by
  intro e he
  obtain ⟨e', he', hread⟩ := List.mem_filterMap.mp (List.mem_reverse.mp he)
  split at hread
  · cases hread
    exact he'
  · cases hread

/-- What the events of other sessions do not tell can be read off the events of the runner's
calls. -/
theorem readOff_own {β : Type} {read : Event S → Option β}
    (h : ∀ e, e.session? ≠ some r → read e = none) (events : List (Event S)) :
    readOff read events = (own r events).filterMap read := by
  unfold own readOff
  rw [← List.filterMap_reverse, ← List.filterMap_reverse, List.filterMap_filterMap]
  congr 1
  funext e
  by_cases he : e.session? = some r
  · simp [he]
  · simp [he, h e he]

end Own

/-- Meanwhile the runner's call noted only this of itself: nothing reacted, the cursor stayed, and
the log is what user code made of it that started or stopped the recording. -/
structure Lingers (r : RunnerId S) (noted : List (Event S)) (w w' : World S) : Prop where
  working : (w'.runner r).working = (w.runner r).working
  cursor : (w'.runner r).cursor = (w.runner r).cursor
  events : ∃ events, w'.journal = events ++ w.journal ∧ own r events = noted ∧
    reactions r events = [] ∧
      ∀ model, (w'.runner r).recording = (w.runner r).recording.replay r model events

section Lingers

variable {r : RunnerId S} {w w₁ w' : World S} {before after : List (Event S)}

theorem Lingers.trans (h : Lingers r before w w₁) (h' : Lingers r after w₁ w') :
    Lingers r (before ++ after) w w' := by
  obtain ⟨old, hold, hbefore, hquiet, hlog⟩ := h.events
  obtain ⟨new, hnew, hafter, hquiet', hlog'⟩ := h'.events
  refine ⟨h'.working.trans h.working, h'.cursor.trans h.cursor, new ++ old, ?_, ?_, ?_,
    fun model => ?_⟩
  · rw [hnew, hold, List.append_assoc]
  · rw [own_append, hbefore, hafter]
  · unfold reactions at hquiet hquiet' ⊢
    rw [readOff_append, hquiet, hquiet', List.append_nil]
  · rw [Recording.replay_append, ← hlog model, ← hlog' model]

theorem Undisturbed.lingers (h : Undisturbed r w w') (hbusy : (w.runner r).activity ≠ .idle) :
    Lingers r [] w w' := by
  obtain ⟨events, hjournal, hapart⟩ := h hbusy
  exact ⟨hapart.session.working, hapart.session.cursor, events, hjournal,
    own_of_foreign hapart.foreign, hapart.reactions, hapart.recording⟩

/-- A note of anything but a reaction. -/
theorem lingers_note {e : Event S} (h : e.session? = some r) (hreaction : e.reaction? r = none)
    (hhear : ∀ model x, Recording.hear r model e x = x) (w : World S) :
    Lingers r [e] w (w.note e) := by
  refine ⟨rfl, rfl, [e], rfl, own_singleton h, ?_, fun model => (hhear model _).symm⟩
  simp [reactions, readOff_cons, hreaction]

theorem lingers_resolved (r : RunnerId S) (step : StepId) (scope : Scope) (c : Cursor)
    (actor : String) (state : S.State) (w : World S) :
    Lingers r [.resolved r step scope c actor state] w
      (w.note (.resolved r step scope c actor state)) :=
  lingers_note rfl rfl (fun _ _ => rfl) w

theorem lingers_left (r : RunnerId S) (w : World S) : Lingers r [.left r] w (w.left r) := by
  refine ⟨?_, ?_, [.left r], rfl, own_singleton rfl, rfl, fun model => ?_⟩
  · rw [World.runner_left]
  · rw [World.runner_left]
  · rw [World.runner_left]
    rfl

end Lingers

/-! ## What a model says of a step -/

namespace Model

variable {C : Code} (model : Model C)

/-- Whether what the step's reaction refers to exists. -/
def refers (step : Step C) : Except RunnerError Unit :=
  match step.reaction with
  | .includeUseCase name =>
    match model.useCaseNamed? name with
    | some _ => .ok ()
    | none => .error (.unknownUseCase name)
  | .continueAt name | .continueAfter name => (model.resolve name).map fun _ => ()
  | _ => .ok ()

/-- The actor that what the step publishes is meant for, if that actor has an inbox. -/
def inboxOf (step : Step C) : Option (String × C.Inbox) :=
  step.publishTo.bind fun actor =>
    ((model.actorNamed? actor).bind (·.inbox)).map fun inbox => (actor, inbox)

/-- A step has its effect unless what it refers to does not exist. -/
theorem apply_refers {m : Type → Type} [Monad m] [LawfulMonad m] (eval : C.Guard → m Bool)
    (here : Cursor) (step : Step C) :
    Prod.snd <$> here.apply eval model step =
      (fun _ => model.refers step) <$> here.apply eval model step := by
  unfold Cursor.apply refers
  cases step.reaction with
  | idle => simp
  | function code => simp
  | includeUseCase name => dsimp only; cases model.useCaseNamed? name <;> simp
  | continueAt name => dsimp only; cases model.resolve name <;> simp [Except.map]
  | continueAfter name => dsimp only; cases model.resolve name <;> simp [Except.map]

end Model

/-! ## The rules -/

section Rules

variable (model : Model (code S)) (r : RunnerId S)

/-- How a step may be looked for. -/
inductive Found (type : MessageType) (scope : Scope) :
    Except RunnerError (Option (Step (code S))) → List (Event S) → Prop where
  | failed {e : RunnerError} (h : model.FailsToResolve type e) : Found type scope (.error e) []
  | none : Found type scope (.ok none) []
  | some {step : Step (code S)} {c : Cursor} {actor : String}
      (h : step.Eligible model c actor type scope) (state : S.State) :
      Found type scope (.ok (some step)) [.resolved r step.id scope c actor state]

/-- How a step may take its turn once it reacted. -/
inductive Concluded (step : Step (code S)) (m : Message) :
    Output → Except RunnerError Reacted → List (Event S) → Prop where
  | failed (failure : Failure) :
      Concluded step m (.error failure) (.ok (.failed failure))
        [.moved r ⟨step.id, m, .error failure, []⟩]
  /-- What the step refers to does not exist. -/
  | dangling {e : RunnerError} (h : model.refers step = .error e) (message : Option Message)
      (answers : List Bool) :
      Concluded step m (.ok message) (.error e) [.moved r ⟨step.id, m, .ok message, answers⟩]
  /-- What it published, if anything, is left over. -/
  | done (h : model.refers step = .ok ()) {message : Option Message}
      (hinbox : message = none ∨ model.inboxOf step = none) (answers : List Bool) :
      Concluded step m (.ok message) (.ok (.published message))
        [.moved r ⟨step.id, m, .ok message, answers⟩]
  /-- What it published is delivered, and taken or refused. -/
  | delivered (h : model.refers step = .ok ()) {actor : String} {inbox : (code S).Inbox}
      (hinbox : model.inboxOf step = some (actor, inbox)) (message : Message)
      (answers : List Bool) (reply : CallResult) :
      Concluded step m (.ok (some message)) (reply.map fun _ => .published none)
        [.moved r ⟨step.id, m, .ok (some message), answers⟩, .delivered r actor message]

/-- How a step may be offered a message. -/
inductive Offered (step : Step (code S)) (m : Message) :
    Except RunnerError Reacted → List (Event S) → Prop where
  | suppressed : Offered step m (.ok .suppressed) [.offered r step.id m]
  /-- The step is triggered, and the hook makes an output of its own. -/
  | reacted {output : Output} {result : Except RunnerError Reacted} {events : List (Event S)}
      (raw : Output) (state : S.State) (h : Concluded model r step m output result events) :
      Offered step m result ([.offered r step.id m, .triggered r step.id m raw,
        .reacted r step.id m output state] ++ events)

/-- How the failure of a step may be handled. -/
inductive Handled (failed : Step (code S)) (failure : Failure) :
    Except RunnerError (Option Message) → List (Event S) → Prop where
  | unresolved {e : RunnerError} {events : List (Event S)}
      (h : Found model r failure.type .failure (.error e) events) :
      Handled failed failure (.error e) events
  | uncaught {events : List (Event S)} (h : Found model r failure.type .failure (.ok none) events) :
      Handled failed failure (.error (.uncaughtReaction failed.name failure)) events
  | suppressed {handler : Step (code S)} {found offered : List (Event S)}
      (hfound : Found model r failure.type .failure (.ok (some handler)) found)
      (hoffered : Offered model r handler failure.condition (.ok .suppressed) offered) :
      Handled failed failure (.error (.uncaughtReaction failed.name failure)) (found ++ offered)
  | broken {handler : Step (code S)} {e : RunnerError} {found offered : List (Event S)}
      (hfound : Found model r failure.type .failure (.ok (some handler)) found)
      (hoffered : Offered model r handler failure.condition (.error e) offered) :
      Handled failed failure (.error e) (found ++ offered)
  | failed {handler : Step (code S)} {again : Failure} {found offered : List (Event S)}
      (hfound : Found model r failure.type .failure (.ok (some handler)) found)
      (hoffered : Offered model r handler failure.condition (.ok (.failed again)) offered) :
      Handled failed failure (.error (.uncaughtReaction handler.name again)) (found ++ offered)
  | handled {handler : Step (code S)} {message : Option Message} {found offered : List (Event S)}
      (hfound : Found model r failure.type .failure (.ok (some handler)) found)
      (hoffered : Offered model r handler failure.condition (.ok (.published message)) offered) :
      Handled failed failure (.ok message) (found ++ offered)

/-- How a step may be executed. -/
inductive Executed (step : Step (code S)) (m : Message) :
    Except RunnerError (Option (Option Message)) → List (Event S) → Prop where
  | broken {e : RunnerError} {events : List (Event S)}
      (h : Offered model r step m (.error e) events) : Executed step m (.error e) events
  | suppressed {events : List (Event S)}
      (h : Offered model r step m (.ok .suppressed) events) : Executed step m (.ok none) events
  | published {message : Option Message} {events : List (Event S)}
      (h : Offered model r step m (.ok (.published message)) events) :
      Executed step m (.ok (some message)) events
  /-- The failure of a step that handles failures is not handled. -/
  | uncaught {failure : Failure} {events : List (Event S)} (hhandler : step.handlesFailure = true)
      (h : Offered model r step m (.ok (.failed failure)) events) :
      Executed step m (.error (.uncaughtReaction step.name failure)) events
  | failed {failure : Failure} {result : Except RunnerError (Option Message)}
      {offered events : List (Event S)} (hhandler : step.handlesFailure = false)
      (hoffered : Offered model r step m (.ok (.failed failure)) offered)
      (h : Handled model r step failure result events) :
      Executed step m (result.map some) (offered ++ events)

variable (installed : Bool)

/-- How a message may be given to the publisher. Only without one, it may be dropped. -/
inductive Published : Option Message → List (Event S) → Prop where
  | none : Published none []
  | dropped (h : installed = false) (m : Message) : Published (some m) []
  | published (m : Message) : Published (some m) [.published r m]

variable (limit : Nat)

/-- How system steps may be executed, when some more are allowed and something is pending that was
published before. -/
inductive Continued : Nat → Option Message → CallResult → List (Event S) → Prop where
  | unresolved {left : Nat} {pending : Option Message} {e : RunnerError} {events : List (Event S)}
      (h : Found model r .systemEvent .normal (.error e) events) :
      Continued left pending (.error e) events
  | settled {left : Nat} {pending : Option Message} {events : List (Event S)}
      (h : Found model r .systemEvent .normal (.ok none) events) :
      Continued left pending (.ok pending) events
  | exhausted {pending : Option Message} {step : Step (code S)} {events : List (Event S)}
      (h : Found model r .systemEvent .normal (.ok (some step)) events) :
      Continued 0 pending (.error (.infiniteRepetition step.name limit)) events
  | broken {left : Nat} {pending : Option Message} {step : Step (code S)} {e : RunnerError}
      {found executed : List (Event S)}
      (hfound : Found model r .systemEvent .normal (.ok (some step)) found)
      (h : Executed model r step .systemEvent (.error e) executed) :
      Continued (left + 1) pending (.error e) (found ++ executed)
  | suppressed {left : Nat} {pending : Option Message} {step : Step (code S)}
      {found executed : List (Event S)}
      (hfound : Found model r .systemEvent .normal (.ok (some step)) found)
      (h : Executed model r step .systemEvent (.ok none) executed) :
      Continued (left + 1) pending (.ok pending) (found ++ executed)
  | executed {left : Nat} {pending message : Option Message} {step : Step (code S)}
      {result : CallResult} {found executed published events : List (Event S)}
      (hfound : Found model r .systemEvent .normal (.ok (some step)) found)
      (h : Executed model r step .systemEvent (.ok (some message)) executed)
      (hpublished : Published r installed pending published)
      (hrest : Continued left message result events) :
      Continued (left + 1) pending result (found ++ (executed ++ (published ++ events)))

/-- How a message may be reacted to. -/
inductive Answered (m : Message) : CallResult → List (Event S) → Prop where
  | unresolved {e : RunnerError} {events : List (Event S)}
      (h : Found model r m.type .normal (.error e) events) : Answered m (.error e) events
  | unhandled {events : List (Event S)} (h : Found model r m.type .normal (.ok none) events) :
      Answered m (.ok none) events
  | broken {step : Step (code S)} {e : RunnerError} {found executed : List (Event S)}
      (hfound : Found model r m.type .normal (.ok (some step)) found)
      (h : Executed model r step m (.error e) executed) :
      Answered m (.error e) (found ++ executed)
  | suppressed {step : Step (code S)} {found executed : List (Event S)}
      (hfound : Found model r m.type .normal (.ok (some step)) found)
      (h : Executed model r step m (.ok none) executed) : Answered m (.ok none) (found ++ executed)
  | executed {step : Step (code S)} {message : Option Message} {result : CallResult}
      {found executed events : List (Event S)}
      (hfound : Found model r m.type .normal (.ok (some step)) found)
      (h : Executed model r step m (.ok (some message)) executed)
      (hrest : Continued model r installed limit limit message result events) :
      Answered m result (found ++ (executed ++ events))

/-- How a model may be started. -/
inductive Begun : CallResult → List (Event S) → Prop where
  | failed {e : RunnerError} {events : List (Event S)}
      (h : Continued model r installed limit limit none (.error e) events) : Begun (.error e) events
  | settled {message : Option Message} {events published : List (Event S)}
      (h : Continued model r installed limit limit none (.ok message) events)
      (hpublished : Published r installed message published) :
      Begun (.ok none) (events ++ published)

end Rules

/-- How a call that was admitted may go, on a runner as it was before. -/
inductive Course (app : Application S) (r : RunnerId S) (x : Runner S) :
    Call S → CallResult → List (Event S) → Prop where
  /-- A runner that is not running does not react. -/
  | idle (m : Message) (h : x.running = false ∨ x.model = none) :
      Course app r x (.react m) (.ok none) []
  | reacted {m : Message} {name : S.ModelName} {result : CallResult} {events : List (Event S)}
      (hrunning : x.running = true) (hmodel : x.model = some name)
      (h : Answered (app.model name) r x.publisher.isSome x.settings.maxContinuations.toNat m
        result events) :
      Course app r x (.react m) result events
  | ran {name : S.ModelName} {result : CallResult} {events : List (Event S)}
      (h : Begun (app.model name) r x.publisher.isSome x.settings.maxContinuations.toNat result
        events) :
      Course app r x (.run name) result (.ran r name :: events)

/-- What the runner is doing does not matter to a call that was admitted. -/
theorem Course.of_busy {app : Application S} {r : RunnerId S} {x : Runner S} {activity : Activity}
    {c : Call S} {result : CallResult} {events : List (Event S)}
    (h : Course app r { x with activity } c result events) : Course app r x c result events := by
  cases h with
  | idle m h => exact .idle m h
  | reacted hrunning hmodel h => exact .reacted hrunning hmodel h
  | ran h => exact .ran h

/-! ## A program logic -/

/-- The runner is in a call, and has a publisher if that is counted on. -/
structure Ready (r : RunnerId S) (installed : Bool) (w : World S) : Prop where
  busy : (w.runner r).activity ≠ .idle
  publisher : installed = true → (w.runner r).publisher.isSome = true

/-- While the runner is in a call, the effect leaves it in the call, and relates what it comes to
with what the call notes meanwhile. -/
def Effect.Tells {α : Type} (r : RunnerId S) (installed : Bool) (p : Effect S α)
    (T : α → List (Event S) → Prop) : Prop :=
  ∀ w, Ready r installed w → Ready r installed (p w).2 ∧
    ∃ events, (p w).2.journal = events ++ w.journal ∧ T (p w).1 (own r events)

section Logic

variable {r : RunnerId S} {installed : Bool} {α β : Type}

theorem Ready.undisturbed {w w' : World S} (h : Ready r installed w) (hw : Undisturbed r w w') :
    Ready r installed w' ∧ ∃ events, w'.journal = events ++ w.journal ∧ own r events = [] := by
  obtain ⟨events, hjournal, hapart⟩ := hw h.busy
  refine ⟨⟨?_, fun hinstalled => hapart.session.publisher (h.publisher hinstalled)⟩, events,
    hjournal, own_of_foreign hapart.foreign⟩
  rw [hapart.session.activity]
  exact h.busy

theorem Effect.tells_pure {T : α → List (Event S) → Prop} {a : α} (h : T a []) :
    Effect.Tells r installed (pure a) T :=
  fun _ hready => ⟨hready, [], rfl, h⟩

theorem Effect.Tells.bind {p : Effect S α} {f : α → Effect S β} {T : α → List (Event S) → Prop}
    {Q : β → List (Event S) → Prop} (hp : Effect.Tells r installed p T)
    (hf : ∀ a events, T a events →
      Effect.Tells r installed (f a) fun b later => Q b (events ++ later)) :
    Effect.Tells r installed (p >>= f) Q := by
  intro w hready
  obtain ⟨hready, old, hold, hT⟩ := hp w hready
  obtain ⟨hready, new, hnew, hQ⟩ := hf _ _ hT _ hready
  refine ⟨hready, new ++ old, ?_, ?_⟩
  · rw [Effect.run_bind, hnew, hold, List.append_assoc]
  · rw [own_append]
    exact hQ

theorem Effect.Tells.mono {p : Effect S α} {T Q : α → List (Event S) → Prop}
    (h : Effect.Tells r installed p T) (hTQ : ∀ a events, T a events → Q a events) :
    Effect.Tells r installed p Q := by
  intro w hready
  obtain ⟨hready, events, hjournal, hT⟩ := h w hready
  exact ⟨hready, events, hjournal, hTQ _ _ hT⟩

theorem Effect.tells_note {e : Event S} {T : Unit → List (Event S) → Prop}
    (h : e.session? = some r) (hT : T () [e]) : Effect.Tells r installed (Effect.note e) T := by
  refine fun w hready => ⟨⟨hready.busy, hready.publisher⟩, [e], rfl, ?_⟩
  rw [own_singleton h]
  exact hT

/-- Nothing is noted. -/
def Effect.Silent (r : RunnerId S) (installed : Bool) (p : Effect S α) : Prop :=
  Effect.Tells r installed p fun _ events => events = []

/-- User code does not touch the call, and is not noted as part of it. -/
theorem Effect.silent_of_undisturbed {p : Effect S α} (h : Effect.Within (Undisturbed r) p) :
    Effect.Silent r installed p := by
  intro w hready
  exact hready.undisturbed (h w)

theorem Effect.silent_modifyRunner {f : Runner S → Runner S}
    (hbusy : ∀ x, x.activity ≠ .idle → (f x).activity ≠ .idle)
    (hpublisher : ∀ x, (f x).publisher = x.publisher) :
    Effect.Silent r installed (Effect.modifyRunner r f) := by
  refine fun w hready => ⟨⟨?_, ?_⟩, [], rfl, rfl⟩
  · rw [runner_modifyRunner_self]
    exact hbusy _ hready.busy
  · rw [runner_modifyRunner_self, hpublisher]
    exact hready.publisher

theorem Effect.Silent.bind {p : Effect S α} {f : α → Effect S β} {Q : β → List (Event S) → Prop}
    (hp : Effect.Silent r installed p) (hf : ∀ a, Effect.Tells r installed (f a) Q) :
    Effect.Tells r installed (p >>= f) Q := by
  refine Effect.Tells.bind hp fun a events hevents => ?_
  subst hevents
  exact hf a

/-- What is noted comes before what follows. -/
theorem Effect.tells_note_bind {e : Event S} {f : Unit → Effect S β}
    {Q : β → List (Event S) → Prop} (h : e.session? = some r)
    (hf : Effect.Tells r installed (f ()) fun b later => Q b (e :: later)) :
    Effect.Tells r installed (Effect.note e >>= f) Q := by
  refine Effect.Tells.bind (Effect.tells_note (T := fun _ events => events = [e]) h rfl)
    fun _ events hevents => ?_
  subst hevents
  exact hf

/-- An attempt that fails ends the sequence. -/
theorem Attempt.tells_bind {x : Attempt S α} {f : α → Attempt S β}
    {T : Except RunnerError α → List (Event S) → Prop}
    {Q : Except RunnerError β → List (Event S) → Prop} (hx : Effect.Tells r installed x.run T)
    (herror : ∀ e events, T (.error e) events → Q (.error e) events)
    (hok : ∀ a events, T (.ok a) events →
      Effect.Tells r installed (f a).run fun b later => Q b (events ++ later)) :
    Effect.Tells r installed (x >>= f).run Q := by
  refine hx.bind (f := ExceptT.bindCont f) fun result events hT => ?_
  cases result with
  | ok a => exact hok a events hT
  | error e => exact Effect.tells_pure (by rw [List.append_nil]; exact herror e events hT)

theorem Attempt.tells_lift_bind {p : Effect S α} {f : α → Attempt S β}
    {T : α → List (Event S) → Prop} {Q : Except RunnerError β → List (Event S) → Prop}
    (hp : Effect.Tells r installed p T)
    (hf : ∀ a events, T a events →
      Effect.Tells r installed (f a).run fun b later => Q b (events ++ later)) :
    Effect.Tells r installed ((liftM p : Attempt S α) >>= f).run Q :=
  hp.bind (f := fun a => (f a).run) hf

theorem Attempt.tells_silent_bind {p : Effect S α} {f : α → Attempt S β}
    {Q : Except RunnerError β → List (Event S) → Prop} (hp : Effect.Silent r installed p)
    (hf : ∀ a, Effect.Tells r installed (f a).run Q) :
    Effect.Tells r installed ((liftM p : Attempt S α) >>= f).run Q :=
  hp.bind (f := fun a => (f a).run) hf

theorem Attempt.tells_note_bind {e : Event S} {f : Unit → Attempt S β}
    {Q : Except RunnerError β → List (Event S) → Prop} (h : e.session? = some r)
    (hf : Effect.Tells r installed (f ()).run fun b later => Q b (e :: later)) :
    Effect.Tells r installed ((liftM (Effect.note e) : Attempt S Unit) >>= f).run Q :=
  Effect.tells_note_bind (f := fun a => (f a).run) h hf

end Logic

/-! ## The parts of a session obey the rules -/

section Session

variable (app : Application S) {calls : Calls S} (s : Session S)
  (hperform : ∀ q, Effect.Within (Undisturbed s.runner) (perform app calls q)) (installed : Bool)
include hperform

theorem resolve_found (type : MessageType) (scope : Scope) :
    Effect.Tells s.runner installed (s.resolve app calls type scope).run
      (Found s.model s.runner type scope) := by
  intro w hready
  have heligible (step : Step (code S))
      (hstep : ((s.resolve app calls type scope).run w).1 = .ok (some step)) :=
    eligible_of_resolve app calls s hstep
  have hfails (e : RunnerError) (he : ((s.resolve app calls type scope).run w).1 = .error e) :=
    fails_of_resolve app calls s he
  unfold Session.resolve at heligible hfails ⊢
  rw [Attempt.run_lift_bind, Attempt.run_lift_bind, Attempt.run_bind] at heligible hfails ⊢
  have hundisturbed := (composes_undisturbed s.runner).sequential.resolution app calls hperform
    s.model (w.runner s.runner).working (w.runner s.runner).actor type scope w
  dsimp only [Effect.runner, Effect.state] at heligible hfails ⊢
  generalize (UseCaseEngine.resolve (evalGuard app calls) s.model (w.runner s.runner).working
    (w.runner s.runner).actor type scope).run w = result at heligible hfails hundisturbed ⊢
  obtain ⟨found, w'⟩ := result
  obtain ⟨hready', events, hjournal, hown⟩ := hready.undisturbed hundisturbed
  rcases found with e | _ | step
  · exact ⟨hready', events, hjournal, hown ▸ .failed (hfails e rfl)⟩
  · exact ⟨hready', events, hjournal, hown ▸ .none⟩
  · refine ⟨⟨hready'.busy, hready'.publisher⟩, _ :: events, congrArg _ hjournal, ?_⟩
    rw [← List.singleton_append, own_append, hown, own_singleton rfl]
    exact .some (heligible step rfl) w.state

theorem exec_silent {α : Type} (p : Action S α) :
    Effect.Silent s.runner installed (exec app calls p) :=
  Effect.silent_of_undisturbed
    ((composes_undisturbed s.runner).sequential.exec app calls hperform p)

theorem trigger_tells (step : Step (code S)) (m : Message) :
    Effect.Tells s.runner installed (s.trigger app calls step m) fun raw events =>
      events = [.triggered s.runner step.id m raw] := by
  unfold Session.trigger
  have hreaction :=
    (composes_undisturbed s.runner).sequential.execReaction app calls hperform step m
  refine (Effect.silent_of_undisturbed hreaction).bind fun raw => ?_
  exact Effect.tells_note_bind rfl (Effect.tells_pure rfl)

theorem around_tells (step : Step (code S)) (m : Message) :
    Effect.Tells s.runner installed (s.around app calls step m) fun output events =>
      (output = none ∧ events = [.offered s.runner step.id m]) ∨
        ∃ raw made state, output = some made ∧ events = [.offered s.runner step.id m,
          .triggered s.runner step.id m raw, .reacted s.runner step.id m made state] := by
  unfold Session.around
  refine Effect.tells_note_bind rfl ?_
  refine (exec_silent app s hperform installed (s.hook step m)).bind fun advice => ?_
  cases advice with
  | suppress output => exact Effect.tells_pure (.inl ⟨rfl, rfl⟩)
  | trigger after =>
    refine (trigger_tells app s hperform installed step m).bind fun raw events hevents => ?_
    subst hevents
    refine (exec_silent app s hperform installed (after raw)).bind fun made => ?_
    have hstate : Effect.Within (Undisturbed s.runner) (Effect.state : Effect S S.State) :=
      (composes_undisturbed s.runner).sequential.state
    refine (Effect.silent_of_undisturbed hstate).bind fun state => ?_
    exact Effect.tells_note_bind rfl (Effect.tells_pure (.inr ⟨raw, made, state, rfl, rfl⟩))

/-- The effect of a step is not noted. -/
theorem applyReaction_tells (step : Step (code S)) :
    Effect.Tells s.runner installed (s.applyReaction app calls step) fun result events =>
      events = [] ∧ result.1 = s.model.refers step := by
  intro w hready
  obtain ⟨answers, applied, c, w₁, -, hresult, hw₁, happly⟩ :=
    applyReaction_spec app s hperform step w
  obtain ⟨hready', events, hjournal, hown⟩ := hready.undisturbed hw₁
  have hmodify : Effect.Silent s.runner installed
      (Effect.modifyRunner s.runner fun x => { x with working := c }) :=
    Effect.silent_modifyRunner (fun _ h => h) fun _ => rfl
  have hrefers : (Cursor.apply told s.model (w.runner s.runner).working step answers).1.2 =
      s.model.refers step :=
    congrArg (fun p => (p answers).1)
      (s.model.apply_refers told (w.runner s.runner).working step)
  rw [happly] at hrefers
  rw [hresult]
  exact ⟨(hmodify w₁ hready').1, events, hjournal, hown, hrefers⟩

omit hperform in
theorem commit_tells (t : Turn) :
    Effect.Tells s.runner installed (s.commit t) fun _ events =>
      events = [.moved s.runner t] := by
  unfold Session.commit
  refine Effect.Silent.bind (Effect.silent_modifyRunner (fun _ h => h) fun _ => rfl) fun _ => ?_
  exact Effect.tells_note rfl rfl

/-- What a step published is left over, or it is delivered. -/
theorem deliver_tells (step : Step (code S)) (message : Option Message) :
    Effect.Tells s.runner installed (s.deliver app calls step message).run fun result events =>
      ((message = none ∨ s.model.inboxOf step = none) ∧ result = .ok message ∧ events = []) ∨
        ∃ m actor inbox, ∃ reply : CallResult, message = some m ∧
          s.model.inboxOf step = some (actor, inbox) ∧ result = reply.map (fun _ => none) ∧
            events = [.delivered s.runner actor m] := by
  unfold Session.deliver
  cases message with
  | none => exact Effect.tells_pure (.inl ⟨.inl rfl, rfl, rfl⟩)
  | some m =>
    dsimp only
    cases hactor : step.publishTo with
    | none =>
      exact Effect.tells_pure (.inl ⟨.inr (by rw [Model.inboxOf, hactor]; rfl), rfl, rfl⟩)
    | some actor =>
      dsimp only
      have hinboxOf : s.model.inboxOf step =
          ((s.model.actorNamed? actor).bind (·.inbox)).map fun inbox => (actor, inbox) := by
        rw [Model.inboxOf, hactor, Option.bind_some]
      cases hinbox : (s.model.actorNamed? actor).bind (·.inbox) with
      | none =>
        rw [hinbox] at hinboxOf
        exact Effect.tells_pure (.inl ⟨.inr hinboxOf, rfl, rfl⟩)
      | some inbox =>
        rw [hinbox] at hinboxOf
        refine Attempt.tells_note_bind rfl ?_
        refine Attempt.tells_bind (exec_silent app s hperform installed (inbox m))
          (fun e events hevents => ?_) fun reply events hevents => ?_
        · subst hevents
          exact .inr ⟨m, actor, inbox, .error e, rfl, hinboxOf, rfl, rfl⟩
        · subst hevents
          exact Effect.tells_pure (.inr ⟨m, actor, inbox, .ok reply, rfl, hinboxOf, rfl, rfl⟩)

/-- **A step takes its turn once it reacted**, unless the hook suppressed it. -/
theorem conclude_concluded (step : Step (code S)) (m : Message) (output : Output) :
    Effect.Tells s.runner installed (s.conclude app calls step m (some output)).run
      (Concluded s.model s.runner step m output) := by
  unfold Session.conclude
  refine Attempt.tells_silent_bind
    (Effect.silent_modifyRunner (fun _ h => h) fun _ => rfl) fun _ => ?_
  cases output with
  | error failure =>
    refine Attempt.tells_lift_bind (commit_tells s installed _) fun _ events hevents => ?_
    subst hevents
    exact Effect.tells_pure (.failed failure)
  | ok message =>
    refine Attempt.tells_lift_bind (applyReaction_tells app s hperform installed step)
      fun result events happlied => ?_
    obtain ⟨applied, answers⟩ := result
    obtain ⟨rfl, rfl : applied = s.model.refers step⟩ := happlied
    refine Attempt.tells_lift_bind (commit_tells s installed _) fun _ events hevents => ?_
    subst hevents
    cases hrefers : s.model.refers step with
    | error e => exact Effect.tells_pure (.dangling hrefers message answers)
    | ok _ =>
      refine Attempt.tells_bind (deliver_tells app s hperform installed step message)
        (fun e events hdelivered => ?_) fun left events hdelivered => ?_
      · rcases hdelivered with ⟨-, hresult, -⟩ | ⟨m', actor, inbox, reply, rfl, hinbox, hreply, rfl⟩
        · cases hresult
        · cases reply with
          | ok _ => cases hreply
          | error e' =>
            cases hreply
            exact .delivered hrefers hinbox m' answers (.error e)
      · refine Effect.tells_pure ?_
        rcases hdelivered with ⟨hinbox, hresult, rfl⟩ |
          ⟨m', actor, inbox, reply, rfl, hinbox, hreply, rfl⟩
        · cases hresult
          exact .done hrefers hinbox answers
        · cases reply with
          | error e => cases hreply
          | ok reply =>
            cases hreply
            exact .delivered hrefers hinbox m' answers (.ok reply)

theorem offer_offered (step : Step (code S)) (m : Message) :
    Effect.Tells s.runner installed (s.offer app calls step m).run
      (Offered s.model s.runner step m) := by
  rw [Session.offer_eq]
  refine Attempt.tells_silent_bind
    (Effect.silent_modifyRunner (fun _ _ h => nomatch h) fun _ => rfl) fun _ => ?_
  refine Attempt.tells_lift_bind (around_tells app s hperform installed step m)
    fun output events haround => ?_
  rcases haround with ⟨rfl, rfl⟩ | ⟨raw, made, state, rfl, rfl⟩
  · exact Effect.tells_pure .suppressed
  · exact (conclude_concluded app s hperform installed step m made).mono
      fun result events h => .reacted raw state h

theorem handleFailure_handled (failed : Step (code S)) (failure : Failure) :
    Effect.Tells s.runner installed (s.handleFailure app calls failed failure).run
      (Handled s.model s.runner failed failure) := by
  unfold Session.handleFailure
  refine Attempt.tells_bind (resolve_found app s hperform installed failure.type .failure)
    (fun e events hfound => .unresolved hfound) fun found events hfound => ?_
  cases found with
  | none => exact Effect.tells_pure (by rw [List.append_nil]; exact .uncaught hfound)
  | some handler =>
    refine Attempt.tells_bind (offer_offered app s hperform installed handler failure.condition)
      (fun e events hoffered => .broken hfound hoffered) fun reacted events hoffered => ?_
    cases reacted with
    | suppressed =>
      exact Effect.tells_pure (by rw [List.append_nil]; exact .suppressed hfound hoffered)
    | published message =>
      exact Effect.tells_pure (by rw [List.append_nil]; exact .handled hfound hoffered)
    | failed again =>
      exact Effect.tells_pure (by rw [List.append_nil]; exact .failed hfound hoffered)

theorem execute_executed (step : Step (code S)) (m : Message) :
    Effect.Tells s.runner installed (s.execute app calls step m).run
      (Executed s.model s.runner step m) := by
  unfold Session.execute
  refine Attempt.tells_bind (offer_offered app s hperform installed step m)
    (fun e events hoffered => .broken hoffered) fun reacted offered hoffered => ?_
  cases reacted with
  | suppressed => exact Effect.tells_pure (by rw [List.append_nil]; exact .suppressed hoffered)
  | published message =>
    exact Effect.tells_pure (by rw [List.append_nil]; exact .published hoffered)
  | failed failure =>
    dsimp only
    cases hhandler : step.handlesFailure with
    | true =>
      exact Effect.tells_pure (by rw [List.append_nil]; exact .uncaught hhandler hoffered)
    | false =>
      refine Attempt.tells_bind (handleFailure_handled app s hperform installed step failure)
        (fun e events h => .failed hhandler hoffered h) fun message events h => ?_
      exact Effect.tells_pure (by rw [List.append_nil]; exact .failed hhandler hoffered h)

/-- With a publisher, a message is given to it. -/
theorem publish_published (m : Message) :
    Effect.Tells s.runner installed (s.publish app calls m) fun _ =>
      Published s.runner installed (some m) := by
  intro w hready
  unfold Session.publish
  rw [Effect.run_bind]
  dsimp only [Effect.runner]
  cases hpublisher : (w.runner s.runner).publisher with
  | none =>
    have hnone : installed = false := by
      refine Bool.eq_false_iff.mpr fun hinstalled => ?_
      have hsome := hready.publisher hinstalled
      rw [hpublisher] at hsome
      cases hsome
    exact ⟨hready, [], rfl, .dropped hnone m⟩
  | some publisher =>
    have htells : Effect.Tells s.runner installed (do
        Effect.note (.published s.runner m)
        exec app calls (app.publisher publisher m)) fun _ events =>
          events = [.published s.runner m] :=
      Effect.tells_note_bind rfl ((exec_silent app s hperform installed _).mono
        fun _ events hevents => by rw [hevents])
    obtain ⟨hready', events, hjournal, hown⟩ := htells w hready
    exact ⟨hready', events, hjournal, hown ▸ .published m⟩

/-- **System steps are executed by the rules**, one after another. -/
theorem continueWith_continued (left : Nat) (pending : Option Message) :
    Effect.Tells s.runner installed (s.continueWith app calls left pending).run
      (Continued s.model s.runner installed s.limit left pending) := by
  induction left generalizing pending with
  | zero =>
    unfold Session.continueWith
    refine Attempt.tells_bind (resolve_found app s hperform installed _ _)
      (fun e events hfound => .unresolved hfound) fun found events hfound => ?_
    cases found with
    | none => exact Effect.tells_pure (by rw [List.append_nil]; exact .settled hfound)
    | some step => exact Effect.tells_pure (by rw [List.append_nil]; exact .exhausted hfound)
  | succ left ih =>
    unfold Session.continueWith
    refine Attempt.tells_bind (resolve_found app s hperform installed _ _)
      (fun e events hfound => .unresolved hfound) fun found events hfound => ?_
    cases found with
    | none => exact Effect.tells_pure (by rw [List.append_nil]; exact .settled hfound)
    | some step =>
      refine Attempt.tells_bind (execute_executed app s hperform installed step _)
        (fun e events h => .broken hfound h) fun message executed h => ?_
      cases message with
      | none => exact Effect.tells_pure (by rw [List.append_nil]; exact .suppressed hfound h)
      | some message =>
        cases pending with
        | none => exact (ih message).mono fun result events hrest => .executed hfound h .none hrest
        | some previous =>
          refine Attempt.tells_lift_bind (publish_published app s hperform installed previous)
            fun _ published hpublished => ?_
          exact (ih message).mono fun result events hrest => .executed hfound h hpublished hrest

theorem react_answered (m : Message) :
    Effect.Tells s.runner installed (s.react app calls m).run
      (Answered s.model s.runner installed s.limit m) := by
  unfold Session.react
  refine Attempt.tells_bind (resolve_found app s hperform installed _ _)
    (fun e events hfound => .unresolved hfound) fun found events hfound => ?_
  cases found with
  | none => exact Effect.tells_pure (by rw [List.append_nil]; exact .unhandled hfound)
  | some step =>
    refine Attempt.tells_bind (execute_executed app s hperform installed step m)
      (fun e events h => .broken hfound h) fun message executed h => ?_
    cases message with
    | none => exact Effect.tells_pure (by rw [List.append_nil]; exact .suppressed hfound h)
    | some message =>
      exact (continueWith_continued app s hperform installed s.limit message).mono
        fun result events hrest => .executed hfound h hrest

theorem begin_begun :
    Effect.Tells s.runner installed (s.begin app calls).run
      (Begun s.model s.runner installed s.limit) := by
  unfold Session.begin
  refine Attempt.tells_bind (continueWith_continued app s hperform installed s.limit none)
    (fun e events h => .failed h) fun message events h => ?_
  cases message with
  | none => exact Effect.tells_pure (.settled h .none)
  | some message =>
    refine Attempt.tells_lift_bind (publish_published app s hperform installed message)
      fun _ published hpublished => ?_
    exact Effect.tells_pure (by rw [List.append_nil]; exact .settled h hpublished)

end Session

/-! ## Calls obey the rules -/

section Call

variable {app : Application S} {r : RunnerId S}

/-- What a session tells is told of the call that opens it. -/
theorem openSession_tells {installed : Bool} {w : World S} (hready : Ready r installed w)
    (name : S.ModelName) (T : Session S → CallResult → List (Event S) → Prop)
    (body : Session S → Attempt S (Option Message))
    (hbody : ∀ s : Session S, s.runner = r → Effect.Tells r installed (body s).run (T s)) :
    ∃ s : Session S, s.model = app.model name ∧
      s.limit = (w.runner r).settings.maxContinuations.toNat ∧
      ∃ events, ((liftM (openSession app r name) >>= body : Attempt S _).run w).2.journal =
          events ++ w.journal ∧
        T s ((liftM (openSession app r name) >>= body : Attempt S _).run w).1 (own r events) := by
  obtain ⟨s, w₁, hopen, hs, hmodel, hjournal, hrunner⟩ := exists_openSession app w name (r := r)
  have hlimit : s.limit = (w.runner r).settings.maxContinuations.toNat := by
    have hsession := congrArg (fun p => p.1.limit) hopen
    rw [← hsession]
    change ((Effect.modifyRunner r (fun x => { x with working := x.cursor }) w).2.runner
      r).settings.maxContinuations.toNat = _
    rw [runner_modifyRunner_self]
  have hready₁ : Ready r installed w₁ := by
    refine ⟨?_, ?_⟩
    · rw [hrunner]
      exact hready.busy
    · rw [hrunner]
      exact hready.publisher
  obtain ⟨-, events, hevents, hT⟩ := hbody s hs w₁ hready₁
  refine ⟨s, hmodel, hlimit, events, ?_, ?_⟩
  · rw [Attempt.run_lift_bind, hopen, hevents, hjournal]
  · rw [Attempt.run_lift_bind, hopen]
    exact hT

variable {calls : Calls S} (hperform : ∀ q, Effect.Within (Undisturbed r) (perform app calls q))
include hperform

theorem reactTo_course {w : World S} (hbusy : (w.runner r).activity ≠ .idle) (m : Message) :
    ∃ events, ((reactTo app calls r m).run w).2.journal = events ++ w.journal ∧
      Course app r (w.runner r) (.react m) ((reactTo app calls r m).run w).1 (own r events) := by
  rcases (w.runner r).inactive_or with hinactive | ⟨hrunning, name, hmodel⟩
  · rw [reactTo_of_inactive hinactive]
    exact ⟨[], rfl, .idle m hinactive⟩
  · rw [reactTo_of_running hrunning hmodel]
    obtain ⟨s, hsmodel, hlimit, events, hevents, hanswered⟩ := openSession_tells ⟨hbusy, id⟩
      name (fun s => Answered s.model r (w.runner r).publisher.isSome s.limit m)
      (fun s => s.react app calls m) (fun s hs => by
        subst hs
        exact react_answered app s hperform _ m)
    rw [hsmodel, hlimit] at hanswered
    exact ⟨events, hevents, .reacted hrunning hmodel hanswered⟩

theorem runModel_course {w : World S} (hbusy : (w.runner r).activity ≠ .idle)
    (name : S.ModelName) :
    ∃ events, ((runModel app calls r name).run w).2.journal = events ++ w.journal ∧
      Course app r (w.runner r) (.run name) ((runModel app calls r name).run w).1
        (own r events) := by
  rw [runModel_eq]
  have hready : Ready r (w.runner r).publisher.isSome (w.started r name) := by
    refine ⟨?_, ?_⟩
    · rw [World.runner_started]
      exact hbusy
    · rw [World.runner_started]
      exact id
  have hrecording := (composes_undisturbed r).sequential.recordFromStart app calls hperform r
    (w.started r name)
  generalize (recordFromStart r (w.started r name)).2 = w₂ at hrecording ⊢
  obtain ⟨old, hold, hapart⟩ := hrecording hready.busy
  obtain ⟨s, hsmodel, hlimit, events, hevents, hbegun⟩ :=
    openSession_tells (hready.undisturbed hrecording).1 name
      (fun s => Begun s.model r (w.runner r).publisher.isSome s.limit)
      (fun s => s.begin app calls) (fun s hs => by
        subst hs
        exact begin_begun app s hperform _)
  have hsettings : (w₂.runner r).settings = (w.runner r).settings := by
    rw [hapart.session.settings, World.runner_started]
  rw [hsmodel, hlimit, hsettings] at hbegun
  refine ⟨events ++ (old ++ [.ran r name]), ?_, ?_⟩
  · rw [hevents, hold, List.append_assoc, List.append_assoc]
    rfl
  · rw [own_append, own_append, own_of_foreign hapart.foreign, own_singleton rfl]
    exact .ran hbegun

theorem occupy_course (c : Call S) (w : World S) :
    ∃ events trace, (occupy app calls r c w).2.journal = events ++ w.journal ∧
      own r events = .entered r :: (trace ++ [.left r]) ∧
        Course app r (w.runner r) c (occupy app calls r c w).1 trace := by
  rw [occupy_eq]
  have hserve : ∃ events, ((serve app calls r c).run (w.entered r)).2.journal =
        events ++ (w.entered r).journal ∧
      Course app r ((w.entered r).runner r) c ((serve app calls r c).run (w.entered r)).1
        (own r events) := by
    cases c with
    | react m => exact reactTo_course hperform (w.entered_busy r) m
    | run name => exact runModel_course hperform (w.entered_busy r) name
  obtain ⟨events, hevents, hcourse⟩ := hserve
  refine ⟨.left r :: (events ++ [.entered r]), own r events, ?_, ?_, ?_⟩
  · change .left r :: ((serve app calls r c).run (w.entered r)).2.journal =
      .left r :: ((events ++ [.entered r]) ++ w.journal)
    rw [hevents, List.append_assoc]
    rfl
  · rw [← List.singleton_append, own_append, own_append, own_singleton rfl, own_singleton rfl]
    rfl
  · rw [World.runner_entered] at hcourse
    exact hcourse.of_busy

end Call

/-- **Every call goes by the rules.** A call on a runner that is not in one is admitted, and what it
notes of itself, until it ends, is one of the courses of such a call. -/
theorem callWithin_course (app : Application S) (depth : Nat) (r : RunnerId S) (c : Call S)
    {w : World S} (hidle : (w.runner r).activity = .idle) :
    ∃ events trace, (callWithin app (depth + 1) r c w).2.journal = events ++ w.journal ∧
      own r events = .entered r :: (trace ++ [.left r]) ∧
        Course app r (w.runner r) c (callWithin app (depth + 1) r c w).1 trace := by
  rw [callWithin_of_idle app depth r c hidle]
  exact occupy_course (perform_undisturbed app r depth) c w

end UseCaseEngine
