import UseCaseEngine.Proofs.Graph
import UseCaseEngine.Proofs.Resolutions

/-!
# Which steps are offered

Whatever steps a run offers, for a message, to go on by itself, or to handle a failure, they are for
the actor that acts then or for the system, and, unless they handle failures, they stay inside the
innermost included use case. Where a use case is included by some step, its basic flow is entered by
inclusion only, as long as it says nothing else itself.

Out of scope: what a step does that is in place, and whether it is left among several.

* `Step.InPlace`: what is asked of a step that is offered.
* `entry_of_reached`: how a step is reached that enters an included use case.
* `Session.FindsInPlace`: a session finds a step in place, by what guards answer in that world.
* **`offered_in_place`**: sessions resolve steps in place only, and every step that is offered was
  resolved right before.
-/

namespace UseCaseEngine

variable {C : Code}

/-- The step enters the basic flow of a use case that some step includes, and the flow says nothing
of where it can be entered. -/
structure Model.EntersIncluded (model : Model C) (step : Step C) (u : UseCase) : Prop where
  flow : ∃ flow, model.Enters step flow ∧ flow.IsDefault ∧ model.isBasicFlow flow = true ∧
    model.useCase? flow.useCase = some u
  included : ∃ s ∈ model.steps, s.reaction = .includeUseCase u.name

section Reached

variable (model : Model C) (c : Cursor) (said : C.Guard → Bool → Prop) (step : Step C)

/-- The step was the latest one, and its condition for repeating holds. -/
def Step.RepeatsItself : Prop :=
  c.latest = some step.id ∧ ∃ g, step.repeatWhile = some g ∧ said g true

/-- The use case was included last, by the latest step, and not left yet. -/
def Model.JustIncluded (u : UseCase) : Prop :=
  ∃ f s, c.frames.head? = some f ∧ f.included = u.id ∧ c.latest = some f.includeStep ∧
    model.step? f.includeStep = some s ∧ s.reaction = .includeUseCase u.name

/-- The step is for the actor or for the system. Unless it handles failures, it stays inside the
innermost included use case. If it enters a use case that is included, it does so by repeating, by a
continuation, or because the use case was just included. -/
structure Step.InPlace (actor : String) : Prop where
  bound : step.isBoundTo actor = true ∨ step.isBoundTo Actor.system = true
  scope : step.handlesFailure = false → ∀ f, c.frames.head? = some f → f.included = step.useCase
  entry : ∀ u, model.EntersIncluded step u →
    step.RepeatsItself c said ∨ c.continueAt = some step.id ∨ model.JustIncluded c u

end Reached

section Entry

variable {model : Model C} {c : Cursor} {said : C.Guard → Bool → Prop} {step : Step C}

/-- A name refers to one use case. -/
theorem Model.Placed.useCase_of_frame (hplaced : model.Placed) (hwell : c.WellFormed model)
    {f : Frame} (hf : f ∈ c.frames) {u : UseCase} (hu : model.useCase? f.included = some u) :
    ∃ s, model.step? f.includeStep = some s ∧ s.reaction = .includeUseCase u.name := by
  obtain ⟨s, name, v, hs, hreaction, hv, hid⟩ := hwell.frames f hf
  have hmem := Model.mem_useCases_of_useCaseNamed? hv
  rw [hid, hplaced.useCase?_self hmem] at hu
  obtain rfl := Option.some.inj hu
  exact ⟨s, hs, Model.name_of_useCaseNamed? hv ▸ hreaction⟩

/-- **A use case that is included is entered by inclusion**, unless its first step repeats or is
continued at. -/
theorem entry_of_reached (hbuilt : model.Built) (hwell : c.WellFormed model)
    (hreached : step.Reached model c said) {u : UseCase} (henters : model.EntersIncluded step u) :
    step.RepeatsItself c said ∨ c.continueAt = some step.id ∨ model.JustIncluded c u := by
  have hplaced := placed_of_build hbuilt
  obtain ⟨⟨flow, ⟨hentry, hflow⟩, ⟨hposition, hguard⟩, hbasic, hu⟩, hincluder⟩ := henters
  have hincluded : model.isIncluded flow.useCase = true := by
    obtain ⟨spec, hspec⟩ := hbuilt
    rw [← hplaced.useCase_id hu]
    exact ((graph_of_build hspec).ordered.included u
      (Model.mem_useCases_of_useCase? hu)).mpr hincluder
  rcases hreached.position with ⟨hlatest, hloop⟩ | ⟨hstands, -⟩
  · exact .inl ⟨hlatest, hloop.condition⟩
  -- Of the rules of positions, only those for a continuation and for an inclusion are left: all
  -- others are for steps or flows of another kind.
  have hsame {flow' : Flow C} (h : model.Enters step flow') : flow' = flow :=
    Option.some.inj (h.2.symm.trans hflow)
  cases hstands with
  | pending h => exact .inr (.inl h)
  | behind hprevious _ =>
    rw [hentry] at hprevious
    cases hprevious
  | anytime henters' hanytime =>
    rw [hsame henters', hposition] at hanytime
    cases hanytime
  | after henters' hafter =>
    rw [hsame henters', hposition] at hafter
    cases hafter
  | insteadOf henters' hinstead =>
    rw [hsame henters', hposition] at hinstead
    cases hinstead
  | guarded henters' _ hguarded =>
    rw [hsame henters', hguard] at hguarded
    cases hguarded
  | first henters' _ _ hnot =>
    rw [hsame henters', hincluded] at hnot
    cases hnot
  | following henters' _ hnot =>
    rw [hsame henters', hbasic] at hnot
    cases hnot
  | @included _ _ frame henters' _ _ _ hframe huseCase hlatest =>
    rw [hsame henters'] at huseCase
    obtain ⟨s, hs, hreaction⟩ := hplaced.useCase_of_frame hwell (List.mem_of_head? hframe)
      (huseCase ▸ hu)
    refine .inr (.inr ⟨frame, s, hframe, ?_, hlatest, hs, hreaction⟩)
    rw [huseCase, hplaced.useCase_id hu]

end Entry

/-! ## Runs -/

section Session

variable {S : Signature} {app : Application S}

/-- From this world on, the session asks the step whether it can be reached, among those that may
take a message for the runner's actor at the runner's cursor. By what its guards answer then, the
step is in place. -/
def Session.FindsInPlace (app : Application S) (depth : Nat) (s : Session S) (type : MessageType)
    (scope : Scope) (step : Step (code S)) (w : World S) : Prop :=
  let x := w.runner s.runner
  let eval := evalGuard app (callWithin app depth)
  ∃ v, (step, v) ∈ asked eval s.model x.working x.actor type scope s.model.steps w ∧
    step.InPlace s.model x.working (step.Hears eval s.model x.working v) x.actor

/-- **What is asked and can be reached is in place.** -/
theorem findsInPlace_of_resolve {depth : Nat} {s : Session S} {r : RunnerId S}
    {model : Model (code S)} {type : MessageType} {scope : Scope} {step : Step (code S)}
    {w : World S} (hrunner : s.runner = r) (hmodel : s.model = model) (hbuilt : model.Built)
    (hwell : (w.runner r).working.WellFormed model)
    (h : ((resolve (evalGuard app (callWithin app depth)) model (w.runner r).working
      (w.runner r).actor type scope).run w).1 = .ok (some step)) :
    s.FindsInPlace app depth type scope step w := by
  subst hrunner hmodel
  obtain ⟨v, hasked, hreached⟩ := exists_asked_of_resolve (placed_of_build hbuilt) h
  obtain ⟨-, hfits⟩ := fits_of_mem_asked hasked
  obtain ⟨⟨hscope, hopen⟩, -⟩ : (scope.admits (w.runner s.runner).working step = true ∧
      step.isOpenTo (w.runner s.runner).actor = true) ∧ step.expects type = true := by
    simpa [Step.fits] using hfits
  refine ⟨v, hasked, (Bool.or_eq_true _ _).mp hopen, fun hhandler f hf => ?_,
    fun u hu => entry_of_reached hbuilt hwell (reached_of_isReachedIn hreached) hu⟩
  unfold Scope.admits at hscope
  cases scope with
  | failure =>
    rw [hhandler] at hscope
    cases hscope
  | normal =>
    rw [hhandler] at hscope
    cases hframes : (w.runner s.runner).working.frames with
    | nil =>
      rw [hframes] at hf
      cases hf
    | cons top rest =>
      rw [hframes] at hf hscope
      cases hf
      exact beq_iff_eq.mp hscope

end Session

section Reachable

variable {S : Signature} {app : Application S}

/-- **Steps are offered in place.** Whatever the world is, the step that a session resolves in it is
noted with the cursor of the call, the actor that acts there and the state there, and it is in
place for them. And every step that a run offers was resolved right before by a session of the
runner, at the cursor where the runner was. -/
theorem offered_in_place (hbuilt : app.Built) :
    (∀ depth name (s : Session S) type scope step (w after : World S), s.model = app.model name →
      (w.runner s.runner).working.WellFormed s.model →
      (s.resolve app (callWithin app depth) type scope).run w = (.ok (some step), after) →
        (∃ before, after.journal = .resolved s.runner step.id scope (w.runner s.runner).working
          (w.runner s.runner).actor w.state :: before) ∧
        s.FindsInPlace app depth type scope step w) ∧
    ∀ w : World S, Reachable app w → ∀ r id m earlier,
      .offered r id m :: earlier <:+ w.journal → ∃ (x : Resolution app r) (since : List (Event S)),
        earlier = since ++ x.event :: x.before ∧ (∀ e ∈ since, e.session? ≠ some r) ∧
        x.step.id = id ∧ (x.start.runner r).working = cursorAt app r x.before ∧
        x.session.FindsInPlace app x.depth x.type x.scope x.step x.start := by
  refine ⟨fun depth name s type scope step w after hmodel hwell hresolve => ?_,
    fun w h r id m earlier hoffered => ?_⟩
  · rw [Session.resolve_run] at hresolve
    cases hfound : (resolve (evalGuard app (callWithin app depth)) s.model
        (w.runner s.runner).working (w.runner s.runner).actor type scope).run w with
    | mk found w' =>
      rw [hfound] at hresolve
      rcases found with e | _ | other
      · cases hresolve
      · cases hresolve
      · cases hresolve
        exact ⟨⟨w'.journal, rfl⟩, findsInPlace_of_resolve rfl rfl (hmodel ▸ hbuilt name) hwell
          (congrArg Prod.fst hfound)⟩
  · obtain ⟨since, before, scope, c, actor, state, rfl, hforeign⟩ :=
      (sequenced_of_reachable hbuilt h r).offered hoffered
    have hresolved : .resolved r id scope c actor state :: before <:+ w.journal :=
      (List.suffix_append since _).trans ((List.suffix_cons _ _).trans hoffered)
    obtain ⟨x, hevent, rfl⟩ := exists_resolution hbuilt h hresolved
    obtain ⟨-, hid, -, hc, -, -⟩ := Event.resolved.inj hevent
    obtain ⟨-, hrecounted⟩ := recounted_of_reachable hbuilt h r
    have hcursor : (x.start.runner r).working = cursorAt app r x.before :=
      hc.trans (hrecounted.faithful.resolved hresolved)
    have hwell : (x.start.runner r).working.WellFormed (app.model x.name) :=
      hcursor ▸ wellFormed_cursorAt hbuilt r x.bound
    obtain ⟨after, hfound, -⟩ := x.found
    exact ⟨x, since, by rw [hevent], hforeign, hid, hcursor, findsInPlace_of_resolve x.runner
      x.model (hbuilt x.name) hwell (congrArg Prod.fst hfound)⟩

namespace Detour

/-- The detour, as a use case of the trip. -/
def detour : UseCase := ⟨⟨1⟩, "Detour", [⟨1⟩, ⟨2⟩], [⟨2⟩, ⟨3⟩, ⟨4⟩]⟩

/-- The first stop enters the detour, which is included when the road is left. -/
theorem entersIncluded_first {step : Step (code signature)}
    (h : (application.model ()).step? ⟨2⟩ = some step) :
    (application.model ()).EntersIncluded step detour := by
  cases h
  refine ⟨⟨_, ⟨rfl, rfl⟩, ⟨rfl, rfl⟩, ?_, rfl⟩, _, List.mem_cons_self, rfl⟩
  decide +kernel

/-- A session of the driver. -/
def session : Session signature := ⟨driver, application.model (), Hook.callThrough, 10⟩

end Detour

/-- Before anything happened, a session finds that leaving the road is in place for the user. The
first stop is offered because the detour was just included. -/
theorem offered_in_place_on_detour :
    (∃ step after before,
      (Detour.session.resolve Detour.application (callWithin Detour.application 0) Detour.driveType
        .normal).run Detour.start = (.ok (some step), after) ∧
      after.journal = .resolved Detour.driver ⟨0⟩ .normal {} "user" () :: before ∧
      Detour.session.FindsInPlace Detour.application 0 Detour.driveType .normal step
        Detour.start) ∧
    ∃ m, .offered Detour.driver ⟨2⟩ m :: Detour.detoured.journal.drop 12 <:+
        Detour.detoured.journal ∧
      (Detour.application.model ()).useCaseNamed? "Detour" = some Detour.detour ∧
        (Detour.application.model ()).JustIncluded (cursorAt Detour.application Detour.driver
          (Detour.detoured.journal.drop 13)) Detour.detour := by
  obtain ⟨hsessions, hruns⟩ := offered_in_place Detour.built
  refine ⟨?_, ?_⟩
  · obtain ⟨step, after, hresolve, hid⟩ : ∃ step after,
        (Detour.session.resolve Detour.application (callWithin Detour.application 0)
          Detour.driveType .normal).run Detour.start = (.ok (some step), after) ∧
          step.id = ⟨0⟩ := ⟨_, _, rfl, rfl⟩
    obtain ⟨⟨before, hjournal⟩, hplace⟩ :=
      hsessions 0 () Detour.session _ _ _ _ _ rfl wellFormed_empty hresolve
    rw [hid] at hjournal
    exact ⟨step, after, before, hresolve, hjournal, hplace⟩
  · have hread : Detour.detoured.journal[11]?.bind (Event.offer? Detour.driver) =
        some (⟨2⟩, Detour.drive) := by decide +kernel
    obtain ⟨e, hoffer, hdrop⟩ := exists_event hread
    obtain rfl := Event.eq_offered_of_offer? hoffer
    have hoffered := hdrop ▸ List.drop_suffix 11 Detour.detoured.journal
    refine ⟨_, hoffered, by decide, ?_⟩
    obtain ⟨x, since, hearlier, hforeign, hid, hcursor, v, hasked, hplace⟩ :=
      hruns _ (Detour.reachable_after _) Detour.driver _ _ _ hoffered
    have hbefore := eq_drop_of_foreign hearlier hforeign (by decide +kernel)
    have hstands : (x.start.runner Detour.driver).working =
        { latest := some ⟨0⟩, frames := [⟨⟨0⟩, ⟨1⟩⟩] } := by
      rw [hcursor, hbefore]
      decide +kernel
    have hstep := (placed_of_build (Detour.built ())).step?_self (x.mem_steps Detour.built)
    rw [x.runner, x.model] at hplace
    rw [← hbefore, ← hcursor]
    rcases hplace.entry _ (Detour.entersIncluded_first (hid ▸ hstep)) with
      ⟨hlatest, -⟩ | hpending | hincluded
    · rw [hstands, hid] at hlatest
      cases hlatest
    · rw [hstands] at hpending
      cases hpending
    · exact hincluded

end Reachable

end UseCaseEngine
