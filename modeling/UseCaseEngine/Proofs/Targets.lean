import UseCaseEngine.Proofs.Derivation

/-!
# Where continuations lead

A continuation at a step (`continue_at`) makes that step the next one. A step that follows another
one is next where the other one is the latest. Before the first step of a flow there is none to
stand on, so it is marked, and reacts whatever the position of its flow says. A mark is a note about
one turn only: it stays until the next step is triggered or the model is run anew.

Out of scope: targets that handle failures. Ordinary messages never reach them, whether they are
next or not.

* `advance_continueAt`, `advance_continueAfter`: where a continuation leads.
* `standsBefore_continuedAt`: the target of a continuation may react there.
* `continueAt_cursorAt_iff`: which step is marked, told from the journal.
* **`continued_at_of_reachable`**: so it is in every run.
-/

namespace UseCaseEngine

variable {C : Code}

/-! ## Targets -/

section Target

variable {model : Model C} {source target : Step C} {name : String}

/-- Without failing, a continuation at a step leads in front of it. -/
theorem advance_continueAt (hreaction : source.reaction = .continueAt name)
    (htarget : model.resolve name = .ok target) (c : Cursor) {m : Type → Type} [Monad m]
    (eval : C.Guard → m Bool) :
    c.advance eval model source = pure ((c.reached source).continuedAt source target, .ok ()) := by
  unfold Cursor.advance Cursor.apply
  rw [hreaction]
  dsimp only
  rw [htarget]

/-- A continuation after a step leads behind it. -/
theorem advance_continueAfter (hreaction : source.reaction = .continueAfter name)
    (htarget : model.resolve name = .ok target) (c : Cursor) {m : Type → Type} [Monad m]
    (eval : C.Guard → m Bool) :
    c.advance eval model source = pure ((c.reached source).continuedAfter target, .ok ()) := by
  unfold Cursor.advance Cursor.apply
  rw [hreaction]
  dsimp only
  rw [htarget]

/-- The cursor stands right before the step. -/
structure StandsBefore (model : Model C) (c : Cursor) (target : Step C) : Prop where
  /-- Ordinary messages reach the step, unless it handles failures. -/
  admits : Scope.normal.admits c target = !target.handlesFailure
  /-- The first step of a flow may react, whatever the position of the flow says. -/
  entry : target.previous = none → ∀ {m : Type → Type} [Monad m] (eval : C.Guard → m Bool)
    (budget : Nat), stands eval model c budget target = pure true
  /-- Any other step may react unless the one before it repeats, and then it is that one that
  does. -/
  behind : ∀ id, target.previous = some id → ∃ before, model.step? id = some before ∧
    ∀ {m : Type → Type} [Monad m] (eval : C.Guard → m Bool),
      isRepeating eval c before = before.loops eval ∧
      ∀ budget, stands eval model c budget target =
        ExceptT.lift (do return !(← before.loops eval))

/-- Where the innermost included use case is the step's own, or none is left, ordinary messages
reach the step. -/
theorem admits_unwind {c : Cursor} {frames : List Frame}
    (hframes : c.frames = Cursor.unwind target.useCase frames) :
    Scope.normal.admits c target = !target.handlesFailure := by
  unfold Scope.admits
  cases hleft : c.frames with
  | nil => simp
  | cons frame rest =>
    have hhead : (Cursor.unwind target.useCase frames).head? = some frame := by
      rw [← hframes, hleft]
      rfl
    have htop : frame.included = target.useCase := Cursor.included_of_head?_unwind hhead
    simp [htop]

/-- **In front of the target of a continuation**, the target may react. -/
theorem standsBefore_continuedAt (hplaced : model.Placed) (hmem : target ∈ model.steps)
    (c : Cursor) (source : Step C) :
    StandsBefore model ((c.reached source).continuedAt source target) target := by
  cases hprevious : target.previous with
  | none =>
    rw [Cursor.continuedAt_of_entry hprevious]
    refine ⟨admits_unwind rfl, fun _ m _ eval budget => stands_of_pending rfl budget,
      fun id hid => ?_⟩
    cases hprevious.symm.trans hid
  | some id =>
    rw [Cursor.continuedAt_of_previous hprevious]
    refine ⟨admits_unwind rfl, fun hentry => ?_, fun id' hid' => ?_⟩
    · cases hprevious.symm.trans hentry
    · obtain rfl : id = id' := Option.some.inj (hprevious.symm.trans hid')
      obtain ⟨before, hbefore, -⟩ := hplaced.step?_of_previous hmem hprevious
      obtain rfl : before.id = id := hplaced.step_id hbefore
      exact ⟨before, hbefore, fun eval => ⟨isRepeating_of_latest rfl,
        stands_behind eval hbefore hprevious⟩⟩

end Target

/-! ## Marks -/

section Mark

variable {model : Model C} {c : Cursor} {t : Turn} {id : StepId}

/-- The turn was one of a continuation at the first step of a flow, and made that step the next
one. -/
def Turn.Marks (model : Model C) (t : Turn) (id : StepId) : Prop :=
  ∃ s target name message, model.step? t.step = some s ∧ t.output = .ok message ∧
    s.reaction = .continueAt name ∧ model.resolve name = .ok target ∧ target.previous = none ∧
      target.id = id

/-- A turn of a continuation leads in front of the named step. -/
theorem after_of_continueAt {s target : Step C} {name : String} {message : Option Message}
    (hstep : model.step? t.step = some s) (houtput : t.output = .ok message)
    (hreaction : s.reaction = .continueAt name) (htarget : model.resolve name = .ok target) :
    c.after model t = (c.reached s).continuedAt s target := by
  rw [after_of_apply hstep houtput]
  unfold Cursor.apply
  rw [hreaction]
  dsimp only
  rw [htarget]
  rfl

/-- **Every turn takes the mark away**, and only continuations at first steps leave a new one. -/
theorem continueAt_after_iff {s : Step C} (hstep : model.step? t.step = some s) :
    (c.after model t).continueAt = some id ↔ t.Marks model id := by
  cases houtput : t.output with
  | error failure =>
    rw [after_of_failure hstep houtput]
    constructor
    · intro h
      cases h
    · rintro ⟨-, -, -, message, -, hok, -⟩
      cases houtput.symm.trans hok
  | ok message =>
    have hmarks : t.Marks model id ↔ ∃ target name, s.reaction = .continueAt name ∧
        model.stepNamed? name = some target ∧ target.previous = none ∧ target.id = id := by
      constructor
      · rintro ⟨s', target, name, -, hstep', -, hreaction, htarget, hentry, hid⟩
        obtain rfl : s = s' := Option.some.inj (hstep.symm.trans hstep')
        exact ⟨target, name, hreaction, stepNamed?_of_resolve htarget, hentry, hid⟩
      · rintro ⟨target, name, hreaction, htarget, hentry, hid⟩
        refine ⟨s, target, name, message, hstep, houtput, hreaction, ?_, hentry, hid⟩
        rw [Model.resolve, htarget]
    rw [hmarks]
    unfold Cursor.after
    simp only [hstep, houtput]
    cases s.reaction with
    | idle => simp
    | function code => simp
    | includeUseCase name =>
      dsimp only
      cases model.useCaseNamed? name <;> simp [Cursor.enter, Cursor.reached]
    | continueAfter name =>
      dsimp only
      cases model.stepNamed? name <;> simp [Cursor.continuedAfter, Cursor.reached]
    | continueAt name =>
      dsimp only
      cases htarget : model.stepNamed? name with
      | none => simp [htarget, Cursor.reached]
      | some target =>
        cases hprevious : target.previous with
        | none => simp [htarget, hprevious, Cursor.continuedAt]
        | some previous => simp [htarget, hprevious, Cursor.continuedAt, Cursor.reached]

end Mark

/-! ## Marks in a run -/

section Run

variable {S : Signature} (app : Application S) (r : RunnerId S)

/-- No step of the runner takes a turn, and its model is not run. -/
def Stays (events : List (Event S)) : Prop :=
  ∀ e ∈ events, e.turn? r = none ∧ e.ran? r = none

/-- The latest turn of the runner since its model was run marked the step. -/
def Marked (journal : List (Event S)) (id : StepId) : Prop :=
  ∃ since t earlier bound, journal = since ++ .moved r t :: earlier ∧ Stays r since ∧
    ranModel? r earlier = some bound ∧ t.Marks (app.model bound) id

variable {app r}

theorem stays_cons {e : Event S} {events : List (Event S)} :
    Stays r (e :: events) ↔ (e.turn? r = none ∧ e.ran? r = none) ∧ Stays r events :=
  List.forall_mem_cons

/-- Where the runner stays, so does its cursor. -/
theorem cursorAt_of_stays {events : List (Event S)} (h : Stays r events)
    (journal : List (Event S)) : cursorAt app r (events ++ journal) = cursorAt app r journal :=
  cursorAt_append_of_quiet app (readOff_eq_nil_iff.mpr fun e he => (h e he).1) fun e he =>
    (h e he).2

/-- The latest turn is the one that counts. -/
theorem marked_moved_iff {t : Turn} {earlier : List (Event S)} {bound : S.ModelName}
    (hbound : ranModel? r earlier = some bound) {id : StepId} :
    Marked app r (.moved r t :: earlier) id ↔ t.Marks (app.model bound) id := by
  constructor
  · rintro ⟨since, t', earlier', bound', hjournal, hstays, hbound', hmarks⟩
    cases since with
    | nil =>
      cases hjournal
      obtain rfl : bound = bound' := Option.some.inj (hbound.symm.trans hbound')
      exact hmarks
    | cons e since =>
      cases hjournal
      have hturn := (stays_cons.mp hstays).1.1
      simp [Event.turn?] at hturn
  · exact fun hmarks => ⟨[], t, earlier, bound, rfl, List.forall_mem_nil _, hbound, hmarks⟩

/-- A step is marked as before after anything else but a run. -/
theorem marked_cons_iff {e : Event S} (hturn : e.turn? r = none) (hran : e.ran? r = none)
    {journal : List (Event S)} {id : StepId} :
    Marked app r (e :: journal) id ↔ Marked app r journal id := by
  constructor
  · rintro ⟨since, t, earlier, bound, hjournal, hstays, hmarked⟩
    cases since with
    | nil =>
      cases hjournal
      simp [Event.turn?] at hturn
    | cons e' since =>
      cases hjournal
      exact ⟨since, t, earlier, bound, rfl, (stays_cons.mp hstays).2, hmarked⟩
  · rintro ⟨since, t, earlier, bound, rfl, hstays, hmarked⟩
    exact ⟨e :: since, t, earlier, bound, rfl, stays_cons.mpr ⟨⟨hturn, hran⟩, hstays⟩, hmarked⟩

theorem not_marked_ran {name : S.ModelName} {journal : List (Event S)} {id : StepId} :
    ¬ Marked app r (.ran r name :: journal) id := by
  rintro ⟨since, t, earlier, bound, hjournal, hstays, -⟩
  cases since with
  | nil => cases hjournal
  | cons e since =>
    cases hjournal
    have hran := (stays_cons.mp hstays).1.2
    simp [Event.ran?] at hran

/-- **A step is marked as the next one** just if the latest turn marked it. -/
theorem continueAt_cursorAt_iff {journal : List (Event S)} (h : Faithful app r journal)
    {id : StepId} : (cursorAt app r journal).continueAt = some id ↔ Marked app r journal id := by
  induction journal with
  | nil =>
    constructor
    · exact nofun
    · rintro ⟨since, t, earlier, bound, hjournal, -⟩
      simp at hjournal
  | cons e journal ih =>
    cases hturn : e.turn? r with
    | some t =>
      obtain rfl := Event.eq_moved_of_turn? hturn
      obtain ⟨bound, hbound, s, hstep, -⟩ := h.1 t hturn
      rw [cursorAt_moved app hbound, marked_moved_iff hbound]
      exact continueAt_after_iff hstep
    | none =>
      cases hran : e.ran? r with
      | some name =>
        obtain rfl := Event.eq_ran_of_ran? hran
        rw [cursorAt_run]
        exact ⟨nofun, fun hmarked => absurd hmarked not_marked_ran⟩
      | none =>
        rw [marked_cons_iff hturn hran, ← ih h.2.2]
        have hstays : Stays r [e] := List.forall_mem_singleton.mpr ⟨hturn, hran⟩
        rw [← List.singleton_append, cursorAt_of_stays hstays]

/-! ## Steps that are triggered -/

variable (r) in
/-- The steps that were triggered are those that took their turns. -/
def Took (events : List (Event S)) : Prop :=
  triggers r events = (turns r events).map fun t => (t.step, t.message)

theorem took_append {new old : List (Event S)} (hnew : Took r new) (hold : Took r old) :
    Took r (new ++ old) := by
  unfold Took triggers turns at *
  rw [readOff_append, readOff_append, List.map_append, hnew, hold]

theorem lasting_took (hbuilt : app.Built) : Lasting app r fun w => Took r w.journal where
  apart {w w' events} hjournal hapart h := by
    have htook : Took r events := by
      unfold Took
      rw [hapart.triggers, hapart.turns]
      rfl
    rw [hjournal]
    exact took_append htook h
  call depth c w hidle _ h := by
    obtain ⟨-, -, events, hjournal, -, haccount⟩ := callWithin_serves hbuilt depth r c hidle
    obtain ⟨model, hmodel⟩ := exists_model app (c.model? (w.runner r))
    have hevents : Took r events := (haccount model hmodel).triggers
    have hopening : Took r (c.opening r ++ [.entered r]) := by cases c <;> rfl
    rw [hjournal]
    exact took_append hevents (took_append hopening h)

/-- **Every step that was triggered took its turn.** -/
theorem took_of_reachable (hbuilt : app.Built) {w : World S} (h : Reachable app w) :
    Took r w.journal := by
  have hfresh (w : World S) (hw : w.Fresh) : Took r w.journal := by
    rw [hw.journal]
    rfl
  exact ((lasting_took hbuilt).of_reachable hbuilt hfresh h).2.2

/-- Where no step is triggered, none takes a turn. -/
theorem turns_eq_nil_of_triggers {new old : List (Event S)} (hboth : Took r (new ++ old))
    (hold : Took r old) (h : triggers r new = []) : turns r new = [] := by
  unfold Took triggers turns at *
  rw [readOff_append, readOff_append, h, hold, List.append_nil, List.map_append] at hboth
  have hnone := List.self_eq_append_right.mp hboth
  exact List.map_eq_nil_iff.mp hnone

/-- Operations add to the journal. -/
theorem Operation.apply_grows (app : Application S) (o : Operation S) (w : World S) :
    w.journal <:+ (o.apply app w).journal :=
  o.apply_within composes_grows (fun _ _ h => h.grows) app (callWithin_grows app S.runners) w

end Run

/-- **A continuation at a step makes it the next one.** Wherever a run stands, it leads there
without failing: ordinary messages reach the target unless it handles failures, and it may react,
unless the step before it repeats. So it is after every turn of a continuation. The first step of a
flow stays marked while no step is triggered and no model is run, and no longer: which step is
marked is told by the latest turn alone. Steps are resolved where the turns led, and whatever
triggers no step and runs no model leaves the runner there. -/
theorem continued_at_of_reachable {S : Signature} {app : Application S} (hbuilt : app.Built)
    {w : World S} (h : Reachable app w) (r : RunnerId S) :
    (∀ bound (c : Cursor) (source target : Step (code S)) name,
      source.reaction = .continueAt name → (app.model bound).resolve name = .ok target →
        (∀ {m : Type → Type} [Monad m] (eval : (code S).Guard → m Bool),
          c.advance eval (app.model bound) source =
            pure ((c.reached source).continuedAt source target, .ok ())) ∧
        StandsBefore (app.model bound) ((c.reached source).continuedAt source target) target) ∧
    (∀ t earlier, .moved r t :: earlier <:+ w.journal →
      ∃ bound s, ranModel? r earlier = some bound ∧ (app.model bound).step? t.step = some s ∧
        ∀ name message target, s.reaction = .continueAt name → t.output = .ok message →
          (app.model bound).resolve name = .ok target →
            StandsBefore (app.model bound) (cursorAt app r (.moved r t :: earlier)) target) ∧
    (∀ earlier id, earlier <:+ w.journal →
      ((cursorAt app r earlier).continueAt = some id ↔ Marked app r earlier id)) ∧
    (∀ since earlier, Stays r since → cursorAt app r (since ++ earlier) = cursorAt app r earlier) ∧
    triggers r w.journal = (turns r w.journal).map (fun t => (t.step, t.message)) ∧
    (w.runner r).cursor = cursorAt app r w.journal ∧
    (∀ step scope c actor state earlier,
      .resolved r step scope c actor state :: earlier <:+ w.journal →
        c = cursorAt app r earlier) ∧
    ∀ o : Operation S, ∃ events, (o.apply app w).journal = events ++ w.journal ∧
      (triggers r events = [] → (∀ e ∈ events, e.ran? r = none) →
        ((o.apply app w).runner r).cursor = (w.runner r).cursor) := by
  obtain ⟨-, hrecounted⟩ := recounted_of_reachable hbuilt h r
  have hbefore (bound : S.ModelName) (c : Cursor) (source : Step (code S)) {target : Step (code S)}
      {name : String} (htarget : (app.model bound).resolve name = .ok target) :
      StandsBefore (app.model bound) ((c.reached source).continuedAt source target) target :=
    standsBefore_continuedAt (placed_of_build (hbuilt bound))
      (Model.mem_steps_of_stepNamed? (stepNamed?_of_resolve htarget)) c source
  refine ⟨fun bound c source target name hreaction htarget =>
    ⟨fun eval => advance_continueAt hreaction htarget c eval, hbefore bound c source htarget⟩,
    fun t earlier hsuffix => ?_, fun earlier id hsuffix => ?_, fun since earlier hstays =>
    cursorAt_of_stays hstays earlier, took_of_reachable hbuilt h, hrecounted.cursor,
    fun step scope c actor state earlier hsuffix => hrecounted.faithful.resolved hsuffix,
    fun o => ?_⟩
  · obtain ⟨bound, s, hbound, hstep, hcursor, -⟩ := hrecounted.faithful.moves hbuilt hsuffix
    refine ⟨bound, s, hbound, hstep, fun name message target hreaction houtput htarget => ?_⟩
    rw [hcursor, after_of_continueAt hstep houtput hreaction htarget]
    exact hbefore bound _ s htarget
  · exact continueAt_cursorAt_iff (hrecounted.faithful.of_suffix app r hsuffix)
  · obtain ⟨events, hevents⟩ := o.apply_grows app w
    refine ⟨events, hevents.symm, fun htriggers hran => ?_⟩
    have hreached := h.step o
    have htook : Took r (events ++ w.journal) := by
      rw [hevents]
      exact took_of_reachable hbuilt hreached
    have hturns := turns_eq_nil_of_triggers htook (took_of_reachable hbuilt h) htriggers
    rw [(recounted_of_reachable hbuilt hreached r).2.cursor, hrecounted.cursor, ← hevents]
    exact cursorAt_append_of_quiet app hturns hran

namespace Inn

theorem fresh_start (hungry : Bool) : (start hungry).Fresh := by
  refine ⟨rfl, ?_, ?_, ?_, ?_⟩ <;> exact fun r => Fin.cases rfl (fun i => i.elim0) r

theorem reachable_after (hungry : Bool) (calls : List (Call signature)) :
    Reachable application (after hungry calls) :=
  (Reachable.fresh (fresh_start hungry)).calls waiter calls

/-- The world after a hungry guest ordered, complained, and was not served a dessert. -/
def complained : World signature :=
  after true [.run (), .react (say orderType), .react (say complainType),
    .react (say dessertType)]

end Inn

/-- After the complaint the guest may order anew, and still may after there was no dessert for him.
If he asks for more, paying is next, unless he is served first. -/
theorem continued_at_in_inn :
    (Inn.complained.runner Inn.waiter).cursor.continueAt = some ⟨0⟩ ∧
      Marked Inn.application Inn.waiter Inn.complained.journal ⟨0⟩ ∧
      StandsBefore (Inn.application.model ())
        (((Inn.complained.runner Inn.waiter).cursor.reached (Inn.stepAt 12)).continuedAt
          (Inn.stepAt 12) (Inn.stepAt 2)) (Inn.stepAt 2) := by
  obtain ⟨htargets, -, hmarked, -, -, hcursor, -⟩ :=
    continued_at_of_reachable Inn.built (Inn.reachable_after true _) Inn.waiter
  have hpending : (Inn.complained.runner Inn.waiter).cursor.continueAt = some ⟨0⟩ := by
    decide +kernel
  refine ⟨hpending, ?_, (htargets () _ (Inn.stepAt 12) (Inn.stepAt 2) "Pay" rfl rfl).2⟩
  exact (hmarked _ _ (List.suffix_refl _)).mp (hcursor ▸ hpending)

/-- **A step that handles failures is not made the next one** for ordinary messages: after the
alarm, the rescue is marked, but no message reaches it, and no step is left that can take one of
its type. -/
theorem continued_at_failure_handler :
    let w := Inn.after true [.run (), .react (Inn.say Inn.alarmType)]
    Reachable Inn.application w ∧
      (Inn.stepAt 14).reaction = .continueAt "Rescue" ∧
      (Inn.application.model ()).resolve "Rescue" = .ok (Inn.stepAt 15) ∧
      (w.runner Inn.waiter).cursor = { latest := some ⟨14⟩, continueAt := some ⟨15⟩ } ∧
      Scope.normal.admits (w.runner Inn.waiter).cursor (Inn.stepAt 15) = false ∧
      ((candidates (evalGuard Inn.application (call Inn.application)) (Inn.application.model ())
        (w.runner Inn.waiter).cursor (w.runner Inn.waiter).actor Inn.fireType .normal).run
          w).1.toOption.map List.length = some 0 := by
  refine ⟨Inn.reachable_after true _, rfl, rfl, ?_, ?_, ?_⟩
  · decide +kernel
  · decide +kernel
  · decide +kernel

end UseCaseEngine
