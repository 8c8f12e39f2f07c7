import UseCaseEngine.Proofs.Targets

/-!
# What continuations leave behind

Behind a step, the next one of its flow may react, or the first one of the flow that is declared
next, where that says nothing of where it can be entered. A continuation is meant to leave the step,
and with it what is declared behind it. It does so if it stands on another step: on its target, or
on the one before it. There is none before the first step of a flow. There the run stays on the
continuing step (`continue_at`), and what is declared behind it may react as if nothing had been
continued.

* `stands_of_liesBehind`: what is declared behind a step waits for that step only.
* `leaves_continuedAfter`, `leaves_continuedAt`: continuations that leave the step.
* `remains_continuedAt`: those that do not.
* **`left_by_continuation`**: which is which.
* `not_left_in_inn`: in the inn, who complains or is in a hurry may still walk out or be billed.
-/

namespace UseCaseEngine

variable {C : Code}

section Behind

variable {model : Model C} {c : Cursor} {source target next : Step C}

/-- The step is declared behind the source. -/
inductive Model.LiesBehind (model : Model C) (source next : Step C) : Prop where
  /-- It is the next one of the flow. -/
  | within (h : next.previous = some source.id)
  /-- It starts the flow that is declared after the one that the source ends. -/
  | across {flow : Flow C} (henters : model.Enters next flow) (hdefault : flow.IsDefault)
      (hpreceding : model.precedingFlow? flow = some source.flow)
      (hlast : model.isLast source = true)

/-- Before the basic flow there is none. -/
theorem not_isBasicFlow_of_precedingFlow? {flow : Flow C} {before : FlowId}
    (h : model.precedingFlow? flow = some before) : model.isBasicFlow flow = false := by
  unfold Model.precedingFlow? at h
  unfold Model.isBasicFlow
  cases huseCase : model.useCase? flow.useCase with
  | none => rfl
  | some useCase =>
    rw [huseCase] at h
    dsimp only at h ⊢
    cases hflows : useCase.flows with
    | nil => rfl
    | cons first rest =>
      rw [hflows] at h
      by_cases hfirst : first = flow.id
      · simp [hfirst, List.idxOf?_cons] at h
      · simpa using hfirst

/-- A flow that says nothing of where it can be entered is entered behind the step that ends the
flow declared before it. -/
theorem defaultEntry_of_liesBehind {m : Type → Type} [Monad m] (eval : C.Guard → m Bool)
    {flow : Flow C} (hpreceding : model.precedingFlow? flow = some source.flow)
    (hlast : model.isLast source = true) :
    defaultEntry eval model c flow = isAfter eval model c source.id := by
  unfold Model.isLast at hlast
  cases hflow : model.flow? source.flow with
  | none => simp [hflow] at hlast
  | some before =>
    have hends : before.steps.getLast? = some source.id := by simpa [hflow] using hlast
    unfold defaultEntry
    rw [if_neg (by simp [not_isBasicFlow_of_precedingFlow? hpreceding]), hpreceding,
      Option.bind_some, hflow]
    dsimp only
    rw [hends]

/-- **What is declared behind a step** waits for that step, unless it is marked. -/
theorem stands_of_liesBehind (hbehind : model.LiesBehind source next)
    (hpending : c.continueAt ≠ some next.id) {m : Type → Type} [Monad m] (eval : C.Guard → m Bool)
    (budget : Nat) :
    stands eval model c budget next = ExceptT.lift (isAfter eval model c source.id) := by
  cases hbehind with
  | within hprevious => exact stands_of_previous hpending hprevious budget
  | across henters hdefault hpreceding hlast =>
    unfold stands
    rw [if_neg hpending, henters.1, henters.2]
    dsimp only
    rw [hdefault.1, hdefault.2]
    dsimp only
    rw [if_neg (by simp), defaultEntry_of_liesBehind eval hpreceding hlast]

end Behind

/-! ## Leaving a step -/

section Leaving

variable {model : Model C} {c : Cursor} {source target : Step C} {name : String}

/-- The cursor has left the step: nothing that is declared behind it may react. -/
structure Leaves (model : Model C) (c : Cursor) (source : Step C) : Prop where
  latest : c.latest ≠ some source.id
  behind : ∀ next, model.LiesBehind source next → ∀ {m : Type → Type} [Monad m] [LawfulMonad m]
    (eval : C.Guard → m Bool) (budget : Nat), stands eval model c budget next = pure false

/-- The cursor is still on the step, though another one is marked. -/
structure Remains (model : Model C) (c : Cursor) (source target : Step C) : Prop where
  latest : c.latest = some source.id
  /-- The marked step may react. -/
  marked : ∀ {m : Type → Type} [Monad m] (eval : C.Guard → m Bool) (budget : Nat),
    stands eval model c budget target = pure true
  /-- So may everything else that is declared behind the source, unless the source repeats. -/
  behind : ∀ next, model.LiesBehind source next → next.id ≠ target.id →
    ∀ {m : Type → Type} [Monad m] (eval : C.Guard → m Bool) (budget : Nat),
      stands eval model c budget next = ExceptT.lift (do return !(← source.loops eval))

/-- A cursor that stands elsewhere, with no step marked, has left the step. -/
theorem leaves_of_latest (hlatest : c.latest ≠ some source.id) (hpending : c.continueAt = none) :
    Leaves model c source := by
  refine ⟨hlatest, fun next hbehind m _ _ eval budget => ?_⟩
  rw [stands_of_liesBehind hbehind (by simp [hpending]), isAfter_of_ne hlatest]
  exact congrArg ExceptT.mk (map_pure _ _)

/-- A continuation after another step leaves the step. -/
theorem leaves_continuedAfter (hother : target.id ≠ source.id) :
    Leaves model ((c.reached source).continuedAfter target) source := by
  refine leaves_of_latest (fun hlatest => ?_) rfl
  exact hother (Option.some.inj hlatest)

/-- So does one at a step behind another one. -/
theorem leaves_continuedAt {before : StepId} (hprevious : target.previous = some before)
    (hbefore : before ≠ source.id) :
    Leaves model ((c.reached source).continuedAt source target) source := by
  rw [Cursor.continuedAt_of_previous hprevious]
  refine leaves_of_latest (fun hlatest => ?_) rfl
  exact hbefore (Option.some.inj hlatest)

/-- **A continuation at the first step of a flow does not leave the step.** -/
theorem remains_continuedAt (hsource : model.step? source.id = some source)
    (hentry : target.previous = none) :
    Remains model ((c.reached source).continuedAt source target) source target := by
  rw [Cursor.continuedAt_of_entry hentry]
  refine ⟨rfl, fun eval budget => stands_of_pending rfl budget,
    fun next hbehind hother m _ eval budget => ?_⟩
  rw [stands_of_liesBehind hbehind (fun hmarked => hother (Option.some.inj hmarked).symm)]
  exact congrArg ExceptT.lift (isAfter_of_latest rfl hsource)

end Leaving

/-- **Which continuations leave the step they continue from.** Let a step continue at or after
another one that is not the next one of its flow. Wherever a run stands, nothing that is declared
behind the step may react afterwards if it continues after its target, or at a target with a step
before it. If it continues at the first step of a flow, the run is still on the continuing step,
and everything that is declared behind it may react as soon as it is done repeating. -/
theorem left_by_continuation {model : Model C} (hbuilt : model.Built) (c : Cursor)
    {source target : Step C} (hsource : source ∈ model.steps) {name : String}
    (htarget : model.resolve name = .ok target) (hother : target.id ≠ source.id)
    (hnext : target.previous ≠ some source.id) :
    (source.reaction = .continueAfter name →
      (∀ {m : Type → Type} [Monad m] (eval : C.Guard → m Bool),
        c.advance eval model source =
          pure ((c.reached source).continuedAfter target, .ok ())) ∧
      Leaves model ((c.reached source).continuedAfter target) source) ∧
    (source.reaction = .continueAt name →
      (∀ {m : Type → Type} [Monad m] (eval : C.Guard → m Bool),
        c.advance eval model source =
          pure ((c.reached source).continuedAt source target, .ok ())) ∧
      (target.previous ≠ none →
        Leaves model ((c.reached source).continuedAt source target) source) ∧
      (target.previous = none →
        Remains model ((c.reached source).continuedAt source target) source target)) := by
  refine ⟨fun hreaction => ⟨fun eval => advance_continueAfter hreaction htarget c eval,
    leaves_continuedAfter hother⟩, fun hreaction =>
    ⟨fun eval => advance_continueAt hreaction htarget c eval, fun hbehind => ?_, fun hentry => ?_⟩⟩
  · obtain ⟨before, hprevious⟩ := Option.ne_none_iff_exists'.mp hbehind
    exact leaves_continuedAt hprevious fun hbefore => hnext (hbefore ▸ hprevious)
  · exact remains_continuedAt ((placed_of_build hbuilt).step?_self hsource) hentry

namespace Inn

theorem liesBehind_complain : (application.model ()).LiesBehind (stepAt 8) (stepAt 9) := .within rfl

theorem liesBehind_rush : (application.model ()).LiesBehind (stepAt 10) (stepAt 11) :=
  .across ⟨rfl, rfl⟩ ⟨rfl, rfl⟩ (by decide +kernel) (by decide +kernel)

end Inn

/-- Who asks for more is not led behind that step any more, but who complains or is in a hurry
stays where he was. -/
theorem left_in_inn :
    let model := Inn.application.model ()
    let ordered : Cursor := { latest := some ⟨0⟩ }
    Leaves model ((ordered.reached (Inn.stepAt 12)).continuedAt (Inn.stepAt 12) (Inn.stepAt 2))
        (Inn.stepAt 12) ∧
      model.LiesBehind (Inn.stepAt 12) (Inn.stepAt 13) ∧
      Remains model ((ordered.reached (Inn.stepAt 8)).continuedAt (Inn.stepAt 8) (Inn.stepAt 0))
        (Inn.stepAt 8) (Inn.stepAt 0) ∧
      Remains model ((ordered.reached (Inn.stepAt 10)).continuedAt (Inn.stepAt 10) (Inn.stepAt 0))
        (Inn.stepAt 10) (Inn.stepAt 0) := by
  intro model ordered
  have hpay : model.resolve "Pay" = .ok (Inn.stepAt 2) := rfl
  have horder : model.resolve "Order" = .ok (Inn.stepAt 0) := rfl
  have hmore := left_by_continuation (Inn.built ()) ordered (Inn.stepAt_mem 12) hpay
    (by decide +kernel) (by decide +kernel)
  have hcomplain := left_by_continuation (Inn.built ()) ordered (Inn.stepAt_mem 8) horder
    (by decide +kernel) (by decide +kernel)
  have hrush := left_by_continuation (Inn.built ()) ordered (Inn.stepAt_mem 10) horder
    (by decide +kernel) (by decide +kernel)
  exact ⟨(hmore.2 rfl).2.1 nofun, .within rfl, (hcomplain.2 rfl).2.2 rfl, (hrush.2 rfl).2.2 rfl⟩

/-- **Some continuations do not leave what is declared behind them**: after the complaint, which
goes on with the order, the guest may still walk out, as the next step of the complaint has it; and
after he was in a hurry, he may still be billed, by the flow that is declared next. -/
theorem not_left_in_inn :
    let model := Inn.application.model ()
    let complained := Inn.after true [.run (), .react (Inn.say Inn.complainType)]
    let hurried := Inn.after true [.run (), .react (Inn.say Inn.rushType)]
    let offers (w : World Inn.signature) (type : MessageType) :=
      (inquire Inn.application (call Inn.application) ⟨Inn.waiter, type⟩ w).1.toOption
    (model.resolve "Order" = .ok (Inn.stepAt 0) ∧
        ∀ i ∈ [8, 9, 10, 11], (Inn.stepAt i).id ≠ (Inn.stepAt 0).id) ∧
      (Reachable Inn.application complained ∧ (Inn.stepAt 8).reaction = .continueAt "Order" ∧
        model.LiesBehind (Inn.stepAt 8) (Inn.stepAt 9) ∧
        standing (fun _ => true) model (complained.runner Inn.waiter).cursor 12 (Inn.stepAt 9) =
          .ok true ∧
        offers complained Inn.leaveType = some ["Walk out"]) ∧
      Reachable Inn.application hurried ∧ (Inn.stepAt 10).reaction = .continueAt "Order" ∧
        model.LiesBehind (Inn.stepAt 10) (Inn.stepAt 11) ∧
        standing (fun _ => true) model (hurried.runner Inn.waiter).cursor 12 (Inn.stepAt 11) =
          .ok true ∧
        offers hurried Inn.billType = some ["Ask for the bill"] := by
  refine ⟨⟨rfl, by decide +kernel⟩,
    ⟨Inn.reachable_after true _, rfl, Inn.liesBehind_complain, ?_, ?_⟩,
    Inn.reachable_after true _, rfl, Inn.liesBehind_rush, ?_, ?_⟩
  · decide +kernel
  · decide +kernel
  · decide +kernel
  · decide +kernel

end UseCaseEngine
