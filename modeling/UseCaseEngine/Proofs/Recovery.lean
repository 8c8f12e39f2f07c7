import UseCaseEngine.Example.Shop
import UseCaseEngine.Proofs.Inclusion
import UseCaseEngine.Proofs.Valuation

/-!
# Going on after a failure

A step that handles failures (`on_exception`) belongs to a flow, which may go on behind it. Any use
case of the model may handle a failure, whichever use cases are included; but ordinary messages
stay inside the innermost included one (`in_scope`). So the position of the next step holds after
every failure that was handled, and the flow goes on just if the handler belongs to that use case.

* `goesOn_of_function`: where the handler leads, and what becomes of the step behind it.
* `continueWith_offers`: a session that goes on with system steps offers the only candidate.
* **`recovery_of_reachable`**: so it is after every failure that was handled, in every run.
* `recovery_out_of_scope`: in the shop, a payment that breaks down is noted, and nobody apologises.
-/

namespace UseCaseEngine

variable {C : Code}

/-! ## Behind a handler -/

/-- A step led from one cursor to another, and there the flow may go on with the next step. -/
structure GoesOn (model : Model C) (c c' : Cursor) (handler next : Step C) : Prop where
  /-- The handler is the latest step, no target is pending and the frames are kept. -/
  cursor : c' = { latest := some handler.id, frames := c.frames }
  /-- The next step's position holds unless the handler repeats. -/
  stands : ∀ {m : Type → Type} [Monad m] (eval : C.Guard → m Bool) (budget : Nat),
    UseCaseEngine.stands eval model c' budget next =
      ExceptT.lift (do return !(← handler.loops eval))
  /-- The next step takes part just if the innermost included use case is the handler's. -/
  inScope_iff : Scope.normal.admits c' next = true ↔
    next.handlesFailure = false ∧ ∀ f, c.frames.head? = some f → f.included = handler.useCase
  /-- It can be reached just if the handler does not repeat and its own conditions hold. -/
  reachable : ∀ ν : C.Guard → Bool, (isReachable (m := Id) ν model c' next).run =
    Except.ok (!(handler.loops (m := Id) ν).run && (isWilling (m := Id) ν next).run)
  /-- If it takes part, only its type, its actors and its conditions stand in its way, and steps
  that stand in for it. -/
  candidate_iff : ∀ (ν : C.Guard → Bool) (actor : String) (type : MessageType)
    (left : List (Step C)),
    (candidates (m := Id) ν model c' actor type .normal).run = Except.ok left →
    Scope.normal.admits c' next = true → (handler.loops (m := Id) ν).run = false →
      ∃ found, (UseCaseEngine.reachable (m := Id) ν model c' actor type .normal model.steps).run =
          Except.ok found ∧
        (next ∈ left ↔ (next.isOpenTo actor = true ∧ next.expects type = true ∧
          (isWilling (m := Id) ν next).run = true) ∧ ∀ s ∈ found, ¬ model.StandsInFor s next)

/-- In a placed model, a step that is stood in for is known by its place. -/
theorem Model.Placed.standsInFor_of_id {model : Model C} (h : model.Placed) {s t target : Step C}
    (hs : s ∈ model.steps) (hstands : model.StandsInFor t target) (hid : target.id = s.id) :
    model.StandsInFor t s := by
  obtain ⟨-, name, -, htarget⟩ := id hstands
  have hmem := Model.mem_steps_of_stepNamed? (stepNamed?_of_resolve htarget)
  exact h.step_inj hmem hs hid ▸ hstands

section Behind

variable {model : Model C} {handler next : Step C} {frames : List Frame}

/-- Behind the latest step, the position of the next one holds unless the latest one repeats. -/
theorem stands_behind {m : Type → Type} [Monad m] (eval : C.Guard → m Bool)
    (hhandler : model.step? handler.id = some handler) (hprevious : next.previous = some handler.id)
    (budget : Nat) :
    stands eval model { latest := some handler.id, frames } budget next =
      ExceptT.lift (do return !(← handler.loops eval)) := by
  rw [stands_of_previous (by simp) hprevious, isAfter_of_latest rfl hhandler]

/-- Behind the latest step, the next one can be reached if its conditions hold. -/
theorem isReachable_behind (frames : List Frame) (ν : C.Guard → Bool)
    (hhandler : model.step? handler.id = some handler)
    (hprevious : next.previous = some handler.id) (hne : next.id ≠ handler.id) :
    (isReachable (m := Id) ν model { latest := some handler.id, frames } next).run =
      Except.ok (!(handler.loops (m := Id) ν).run && (isWilling (m := Id) ν next).run) := by
  have hrepeating : isRepeating (m := Id) ν { latest := some handler.id, frames } next =
      pure false :=
    isRepeating_of_ne fun h => hne (Option.some.inj h).symm
  have hentry : entryGuardHolds (m := Id) ν model next = pure true := by
    simp [entryGuardHolds, Step.isEntry, hprevious]
  unfold isReachable isOffered
  rw [hrepeating, stands_behind _ hhandler hprevious, hentry]
  cases hloops : (handler.loops (m := Id) ν).run
  · rw [Id.run] at hloops
    rw [hloops]
    rfl
  · rw [Id.run] at hloops
    rw [hloops]
    rfl

/-- Ordinary messages reach the next step just if the innermost included use case is its own. -/
theorem admits_behind {c : Cursor} (huseCase : next.useCase = handler.useCase) :
    Scope.normal.admits c next = true ↔
      next.handlesFailure = false ∧
        ∀ f, c.frames.head? = some f → f.included = handler.useCase := by
  unfold Scope.admits
  rw [← huseCase]
  cases c.frames with
  | nil => simp
  | cons frame rest => simp

/-- **After a function that did not fail**, in a flow that goes on, the step is the latest one and
the flow may go on. -/
theorem goesOn_of_function (hbuilt : model.Built) {c : Cursor} {t : Turn}
    (hstep : model.step? t.step = some handler) {code : C.Reaction}
    (hreaction : handler.reaction = .function code) {message : Option Message}
    (houtput : t.output = .ok message) (hnext : next ∈ model.steps)
    (hprevious : next.previous = some handler.id) :
    GoesOn model c (c.after model t) handler next := by
  have hplaced := placed_of_build hbuilt
  have hmem := Model.mem_steps_of_step? hstep
  have hhandler := hplaced.step?_self hmem
  obtain ⟨hid, -, huseCase, hlast⟩ := hbuilt.previous hnext hmem hprevious
  have hne : next.id ≠ handler.id := by
    intro h
    have hplace := congrArg StepId.index (hid.symm.trans h)
    simp at hplace
  have hcursor : c.after model t = { latest := some handler.id, frames := c.frames } := by
    rw [after_of_apply hstep houtput, apply_plain (by rw [hreaction]; trivial),
      settle_of_not_isLast told hlast]
    rfl
  have hreachable := fun ν => isReachable_behind c.frames ν hhandler hprevious hne
  rw [hcursor]
  refine ⟨rfl, fun eval => stands_behind eval hhandler hprevious, admits_behind huseCase,
    hreachable, fun ν actor type left hleft hscope hloops => ?_⟩
  obtain ⟨found, hfound, hmemLeft⟩ := mem_candidates ν hleft
  refine ⟨found, hfound, ?_⟩
  have hmemFound := mem_reachable ν hfound next
  rw [hreachable ν, hloops] at hmemFound
  have hstandsIn : (∀ s ∈ found, ∀ target, model.StandsInFor s target → target.id ≠ next.id) ↔
      ∀ s ∈ found, ¬ model.StandsInFor s next := by
    refine ⟨fun h s hs hstands => h s hs next hstands rfl, fun h s hs target hstands hsame => ?_⟩
    exact h s hs (hplaced.standsInFor_of_id hnext hstands hsame)
  rw [hmemLeft, hmemFound, hstandsIn]
  refine and_congr_left fun _ => ⟨fun ⟨_, ⟨_, hopen, hexpects⟩, hwilling⟩ => ?_,
    fun ⟨hopen, hexpects, hwilling⟩ => ⟨hnext, ⟨hscope, hopen, hexpects⟩, ?_⟩⟩
  · exact ⟨hopen, hexpects, by simpa using Except.ok.inj hwilling⟩
  · rw [hwilling]
    rfl

end Behind

/-! ## Going on with system steps -/

variable {S : Signature}

section Session

variable (app : Application S) {calls : Calls S}
  (hcalls : ∀ r c, Effect.Within Grows (calls r c)) (s : Session S)
include hcalls

/-- Whatever becomes of a step that is executed, it is offered and goes through the hook first. -/
theorem execute_hooked {step : Step (code S)} (hstep : step ∈ s.model.steps) (m : Message)
    (w : World S) :
    Grows (s.hooked app calls step m (s.start step m w).2).2
      ((s.execute app calls step m).run w).2 := by
  have h := s.primitives_grows app hcalls
  have hparts := s.parts_grows app hcalls
  have hoffer : Grows (s.hooked app calls step m (s.start step m w).2).2
      ((s.offer app calls step m).run w).2 := by
    rw [Session.offer_parts, Attempt.run_lift_bind, Attempt.run_lift_bind]
    exact h.conclude composes_grows.sequential hstep m _ _
  unfold Session.execute
  refine hoffer.trans (Attempt.run_bind_within composes_grows (fun w reacted _ => ?_) w)
  cases reacted with
  | suppressed => exact Attempt.within_pure composes_grows _
  | published message => exact Attempt.within_pure composes_grows _
  | failed failure =>
    dsimp only
    split
    · exact Attempt.within_throw composes_grows _
    · exact composes_grows.sequential.attempt
        (hparts.handleFailure composes_grows.sequential step failure)
        fun w message _ => composes_grows.sequential.pure _

theorem execute_offers {step : Step (code S)} (hstep : step ∈ s.model.steps) (m : Message)
    (w : World S) :
    .offered s.runner step.id m :: w.journal <:+
      ((s.execute app calls step m).run w).2.journal := by
  have hhooked := (s.primitives_grows app hcalls).hooked composes_grows.sequential hstep m
    (s.start step m w).2
  exact List.IsSuffix.trans hhooked (execute_hooked app hcalls s hstep m w)

/-- **A session that goes on** with system steps, as long as it may, offers the only candidate right
after it was resolved. -/
theorem continueWith_offers {next : Step (code S)} {w w' : World S}
    (honly : (candidates (evalGuard app calls) s.model (w.runner s.runner).working
      (w.runner s.runner).actor .systemEvent .normal).run w = (.ok [next], w'))
    (left : Nat) (pending : Option Message) :
    .offered s.runner next.id .systemEvent ::
        .resolved s.runner next.id .normal (w.runner s.runner).working (w.runner s.runner).actor
          w.state :: w'.journal <:+
      ((s.continueWith app calls (left + 1) pending).run w).2.journal := by
  have hparts := s.parts_grows app hcalls
  have hresolve := resolve_of_candidates app calls s .systemEvent .normal w
  rw [honly] at hresolve
  unfold Session.continueWith
  rw [Attempt.run_bind, hresolve]
  have hnext : next ∈ s.model.steps :=
    (eligible_of_candidates app calls (congrArg Prod.fst honly) next List.mem_cons_self).1
  have hexecute := execute_offers app hcalls s hnext .systemEvent (w'.note
    (.resolved s.runner next.id .normal (w.runner s.runner).working (w.runner s.runner).actor
      w.state))
  refine hexecute.trans (Attempt.run_bind_within composes_grows (fun w message _ => ?_) _)
  cases message with
  | none => exact Attempt.within_pure composes_grows _
  | some message =>
    cases pending with
    | none => exact hparts.continueWith composes_grows.sequential left message
    | some previous =>
      exact composes_grows.sequential.lift (hparts.publish previous)
        fun w => hparts.continueWith composes_grows.sequential left message

end Session

/-! ## Every failure that was handled -/

namespace Shop

theorem built : application.Built :=
  fun _ => ⟨spec, (spec.build_eq_ok_iff _).mpr ⟨rfl, rfl⟩⟩

theorem fresh_start : start.Fresh := by
  refine ⟨rfl, ?_, ?_, ?_, ?_⟩ <;> exact fun r => Fin.cases rfl (fun i => i.elim0) r

theorem reachable_after (requests : List (Request signature)) :
    Reachable application (after requests) :=
  (Reachable.fresh fresh_start).requests requests

/-- The world after something was ordered and paid for. -/
def paidWith (means : String) : World signature :=
  after [.call clerk (.run ()), .call clerk (.react order), .call clerk (.react (pay means))]

end Shop

/-- **After every failure that was handled** by a function that did not fail, in a flow that goes
on: the handler is the latest step, the frames are kept and the next step's position holds, unless
the handler repeats. The next step takes part in the resolution of ordinary messages just if the
innermost included use case is the handler's; then it is a candidate as soon as its type, its actors
and its conditions allow, unless a step stands in for it. A session that goes on from there with
system steps, as long as it may, offers the next step if it is the only candidate. -/
theorem recovery_of_reachable {app : Application S} (hbuilt : app.Built) {w : World S}
    (h : Reachable app w) (r : RunnerId S) :
    (w.runner r).cursor = cursorAt app r w.journal ∧
    ∀ t earlier, .moved r t :: earlier <:+ w.journal →
      ∃ bound handler, ranModel? r earlier = some bound ∧
        (app.model bound).step? t.step = some handler ∧
        ∀ code message next, handler.handlesFailure = true → handler.reaction = .function code →
          t.output = .ok message → next ∈ (app.model bound).steps →
          next.previous = some handler.id →
          GoesOn (app.model bound) (cursorAt app r earlier)
            (cursorAt app r (.moved r t :: earlier)) handler next ∧
          ∀ depth (s : Session S) x x' left pending, s.runner = r → s.model = app.model bound →
            (x.runner r).working = cursorAt app r (.moved r t :: earlier) →
            (candidates (evalGuard app (callWithin app depth)) s.model (x.runner r).working
              (x.runner r).actor .systemEvent .normal).run x = (.ok [next], x') →
            .offered r next.id .systemEvent :: .resolved r next.id .normal (x.runner r).working
                (x.runner r).actor x.state :: x'.journal <:+
              ((s.continueWith app (callWithin app depth) (left + 1) pending).run x).2.journal := by
  obtain ⟨-, hrecounted⟩ := recounted_of_reachable hbuilt h r
  refine ⟨hrecounted.cursor, fun t earlier hsuffix => ?_⟩
  obtain ⟨bound, handler, hbound, hstep, hcursor, -⟩ := hrecounted.faithful.moves hbuilt hsuffix
  refine ⟨bound, handler, hbound, hstep, ?_⟩
  intro code message next _ hreaction houtput hnext hprevious
  refine ⟨?_, ?_⟩
  · rw [hcursor]
    exact goesOn_of_function (hbuilt bound) hstep hreaction houtput hnext hprevious
  · rintro depth s x x' left pending rfl - - honly
    exact continueWith_offers app (callWithin_grows app depth) s honly left pending

namespace Shop

/-- The world in which a session goes on after it explained that the payment was declined. -/
def explained : World signature :=
  (paidWith "card").setRunner clerk { (paidWith "card").runner clerk with
    working := { latest := some ⟨6⟩, frames := [⟨⟨0⟩, ⟨1⟩⟩] } }

/-- Then the only candidate is to ask again. -/
theorem exists_only_candidate :
    ∃ next x', (application.model ()).step? ⟨7⟩ = some next ∧
      (candidates (evalGuard application (callWithin application 0)) (application.model ())
        (explained.runner clerk).working (explained.runner clerk).actor .systemEvent .normal).run
        explained = (.ok [next], x') := by
  have hids : ((candidates (evalGuard application (callWithin application 0))
      (application.model ()) (explained.runner clerk).working (explained.runner clerk).actor
      .systemEvent .normal).run explained).1.toOption.map (·.map (·.id)) = some [⟨7⟩] := by
    decide +kernel
  cases hfound : ((candidates (evalGuard application (callWithin application 0))
      (application.model ()) (explained.runner clerk).working (explained.runner clerk).actor
      .systemEvent .normal).run explained).1 with
  | error e =>
    rw [hfound] at hids
    cases hids
  | ok left =>
    rw [hfound] at hids
    obtain ⟨next, rfl, hid⟩ := List.map_eq_singleton_iff.mp (Option.some.inj hids)
    have hmem := (eligible_of_candidates application _ hfound next List.mem_cons_self).1
    refine ⟨next, _, hid ▸ (placed_of_build (built ())).step?_self hmem, Prod.ext hfound rfl⟩

end Shop

/-- A payment that is declined is explained by the payment itself, which then asks again. -/
theorem recovery_on_declined_payment :
    ∃ t earlier handler next, .moved Shop.clerk t :: earlier <:+ (Shop.paidWith "card").journal ∧
      (Shop.application.model ()).step? ⟨6⟩ = some handler ∧
      (Shop.application.model ()).step? ⟨7⟩ = some next ∧
      GoesOn (Shop.application.model ()) (cursorAt Shop.application Shop.clerk earlier)
        (cursorAt Shop.application Shop.clerk (.moved Shop.clerk t :: earlier)) handler next ∧
      ∃ later, .offered Shop.clerk ⟨7⟩ .systemEvent :: later <:+
        ((Session.continueWith Shop.application (callWithin Shop.application 0)
          ⟨Shop.clerk, Shop.application.model (), Hook.callThrough, 100⟩ 100 none).run
          Shop.explained).2.journal := by
  have hturn : ((Shop.paidWith "card").journal[7]?.bind (Event.turn? Shop.clerk)).map
      (fun t => (t.step, t.output.isOk)) = some (⟨6⟩, true) := by decide +kernel
  obtain ⟨t, message, hid, houtput, hdrop⟩ := exists_moved_ok hturn
  have hsuffix : .moved Shop.clerk t :: (Shop.paidWith "card").journal.drop 8 <:+
      (Shop.paidWith "card").journal := hdrop ▸ List.drop_suffix 7 _
  obtain ⟨-, hturns⟩ := recovery_of_reachable Shop.built (Shop.reachable_after _) Shop.clerk
  obtain ⟨⟨⟩, handler, -, hstep, hrecovers⟩ := hturns t _ hsuffix
  obtain ⟨next, x', hnext, honly⟩ := Shop.exists_only_candidate
  rw [hid] at hstep
  cases hstep
  cases hnext
  obtain ⟨hgoes, hruns⟩ := hrecovers _ message _ rfl rfl houtput
    (Model.mem_steps_of_step? (p := ⟨7⟩) rfl) rfl
  have hworking : (Shop.explained.runner Shop.clerk).working =
      cursorAt Shop.application Shop.clerk
        (.moved Shop.clerk t :: (Shop.paidWith "card").journal.drop 8) := by
    rw [← hdrop]
    decide +kernel
  have hoffered := hruns 0 ⟨Shop.clerk, Shop.application.model (), Hook.callThrough, 100⟩
    Shop.explained x' 99 none rfl rfl hworking honly
  exact ⟨t, _, _, _, hsuffix, rfl, rfl, hgoes, _, hoffered⟩

/-- **The flow of a handler does not go on outside of its use case**: a payment that breaks down is
noted by the shop while the payment is included. The next step is one of the system and has no
conditions, but no step is left that can react to anything. -/
theorem recovery_out_of_scope :
    Reachable Shop.application (Shop.paidWith "cheque") ∧
    ∃ t message code handler next,
      .moved Shop.clerk t :: (Shop.paidWith "cheque").journal.drop 2 <:+
        (Shop.paidWith "cheque").journal ∧
      (Shop.application.model ()).step? t.step = some handler ∧ t.output = .ok message ∧
      handler.handlesFailure = true ∧ handler.reaction = .function code ∧
      handler.repeatWhile = none ∧
      next ∈ (Shop.application.model ()).steps ∧ next.previous = some handler.id ∧
      next.isSystem = true ∧ next.guard = none ∧ next.repeatWhile = none ∧
      ((Shop.paidWith "cheque").runner Shop.clerk).cursor.latest = some handler.id ∧
      Scope.normal.admits ((Shop.paidWith "cheque").runner Shop.clerk).cursor next = false ∧
      ((candidates (evalGuard Shop.application (call Shop.application)) (Shop.application.model ())
        ((Shop.paidWith "cheque").runner Shop.clerk).cursor
        ((Shop.paidWith "cheque").runner Shop.clerk).actor .systemEvent .normal).run
        (Shop.paidWith "cheque")).1.toOption.map List.length = some 0 := by
  have hturn : ((Shop.paidWith "cheque").journal[1]?.bind (Event.turn? Shop.clerk)).map
      (fun t => (t.step, t.output.isOk)) = some (⟨3⟩, true) := by decide +kernel
  obtain ⟨t, message, hid, houtput, hdrop⟩ := exists_moved_ok hturn
  refine ⟨Shop.reachable_after _, t, message, _, _, _, hdrop ▸ List.drop_suffix 1 _,
    by rw [hid]; rfl, houtput, rfl, rfl, rfl, Model.mem_steps_of_step? (p := ⟨4⟩) rfl, rfl, rfl,
    rfl, rfl, ?_, ?_, ?_⟩
  · decide +kernel
  · decide +kernel
  · decide +kernel

end UseCaseEngine
