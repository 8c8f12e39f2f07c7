import UseCaseEngine.Proofs.Inspection
import UseCaseEngine.Proofs.Nesting

/-!
# Stopping a runner

A runner that was stopped (`stop`) is not running until it is run again. Calls look at that when
they are admitted (`running_model`), and nothing else does: a call that is in progress goes on as
if nothing had happened, and an inspection tells what the runner could do if it were running. That
a stopped runner stops reacting, and can react to nothing now, is what was meant.

Out of scope: code that goes by whether a runner is running. No request asks for that.

* `callWithin_dormant`: from outside of its calls, a runner that was stopped lets no step react.
* `callWithin_unheeding`: a call in progress does not heed that its runner is stopped.
* `inquire_stopped`: neither does an inspection.
* **`stopping_spec`**: what stopping a runner does, and what it does not.
* **`stopping_ignored`**: a clerk who was stopped goes on, and is said to take letters.
-/

namespace UseCaseEngine

variable {S : Signature}

/-- The world once a runner was stopped. -/
def World.stopped (w : World S) (r : RunnerId S) : World S :=
  w.setRunner r { w.runner r with running := false }

/-- User code cannot see that the runner was stopped. -/
def Unseen.halted : Unseen := { running := fun _ => false }

/-! ## Between calls -/

/-- No step of the runner was triggered before it was run. -/
def Sleeps (r : RunnerId S) (events : List (Event S)) : Prop :=
  ∀ since, since <:+ events → (∀ e ∈ since, e.ran? r = none) → triggers r since = []

/-- A runner that is in no call is in none afterwards. If it was stopped, no step of it is triggered
before it is run, and it stays stopped unless it is run. -/
def Dormant (r : RunnerId S) (w w' : World S) : Prop :=
  (w.runner r).activity = .idle →
    ∃ events, w'.journal = events ++ w.journal ∧ (w'.runner r).activity = .idle ∧
      ((w.runner r).running = false → Sleeps r events ∧
        ((∀ e ∈ events, e.ran? r = none) → (w'.runner r).running = false))

section Dormant

variable {r : RunnerId S} {events : List (Event S)}

theorem sleeps_of_triggers (h : ∀ e ∈ events, e.trigger? r = none) : Sleeps r events :=
  fun _ hsuffix _ => readOff_eq_nil_iff.mpr fun e he => h e (hsuffix.subset he)

/-- No step is triggered by what comes before a run, and then nothing is said. -/
theorem sleeps_of_ran {name : S.ModelName} {before : List (Event S)}
    (h : Sleeps r (.ran r name :: before)) : Sleeps r (events ++ .ran r name :: before) := by
  intro since hsuffix hran
  rcases List.suffix_or_suffix_of_suffix hsuffix (List.suffix_append events _) with hsub | hsub
  · exact h since hsub hran
  · have hnone := hran _ (hsub.subset List.mem_cons_self)
    simp [Event.ran?] at hnone

theorem composes_dormant (r : RunnerId S) : Composes (Dormant r) where
  refl w hidle := ⟨[], rfl, hidle, fun hstopped =>
    ⟨sleeps_of_triggers fun _ he => absurd he List.not_mem_nil, fun _ => hstopped⟩⟩
  trans := by
    intro w₁ w₂ w₃ h₁₂ h₂₃ hidle
    obtain ⟨old, hold, hidle, hfirst⟩ := h₁₂ hidle
    obtain ⟨new, hnew, hidle, hrest⟩ := h₂₃ hidle
    refine ⟨new ++ old, by rw [hnew, hold, List.append_assoc], hidle, fun hstopped => ?_⟩
    obtain ⟨hsleeps, hstays⟩ := hfirst hstopped
    refine ⟨fun since hsuffix hran => ?_, fun hran => ?_⟩
    · rcases List.suffix_or_suffix_of_suffix hsuffix (List.suffix_append new old) with hsub | hsub
      · exact hsleeps since hsub hran
      · obtain ⟨later, rfl⟩ := hsub
        have hlater : later <:+ new := by
          obtain ⟨before, hbefore⟩ := hsuffix
          rw [← List.append_assoc] at hbefore
          exact ⟨before, List.append_cancel_right hbefore⟩
        have hold := hsleeps old (List.suffix_refl old) fun e he =>
          hran e (List.mem_append_right _ he)
        have hnew := (hrest (hstays fun e he => hran e (List.mem_append_right _ he))).1 later hlater
          fun e he => hran e (List.mem_append_left _ he)
        unfold triggers at hold hnew ⊢
        rw [readOff_append, hold, hnew, List.append_nil]
    · refine (hrest (hstays fun e he => hran e (List.mem_append_right _ he))).2 fun e he => ?_
      exact hran e (List.mem_append_left _ he)

theorem dormant_of_apart {w w' : World S} (events : List (Event S))
    (hjournal : w'.journal = events ++ w.journal)
    (hapart : Apart r events (w.runner r) (w'.runner r)) : Dormant r w w' := by
  refine fun hidle => ⟨events, hjournal, hapart.session.activity.trans hidle, fun hstopped => ?_⟩
  exact ⟨sleeps_of_triggers fun e he => foreign_trigger? (hapart.foreign e he),
    fun _ => hapart.session.running hstopped⟩

theorem Aside.dormant {w w' : World S} (h : Aside w w') : Dormant r w w' := by
  obtain ⟨events, hjournal, -, hapart⟩ := h
  exact dormant_of_apart events hjournal (hapart r)

variable {app : Application S} {calls : Calls S}

theorem primitives_dormant (hcalls : ∀ r' c, Effect.Within (Dormant r) (calls r' c))
    {r' : RunnerId S} (h : r' ≠ r) : Primitives app calls r' (Effect.Within (Dormant r)) where
  perform := perform_within (fun _ _ haside => haside.dormant) app hcalls
  look := (composes_dormant r).look r'
  modify f w := by
    refine dormant_of_apart [] rfl ?_
    rw [runner_modifyRunner, if_neg h]
    exact Apart.refl _
  note e he w := by
    refine dormant_of_apart [e] rfl (Apart.of_event ?_ ?_ _)
    · rw [he]
      exact fun heq => h (Option.some.inj heq)
    · rintro on rfl
      cases he

/-- A runner that is not running, or has no model, does not react. -/
theorem occupy_of_inactive {w : World S}
    (h : (w.runner r).running = false ∨ (w.runner r).model = none) {m : Message} :
    occupy app calls r (.react m) w = (.ok none, (w.entered r).left r) := by
  have hentered : ((w.entered r).runner r).running = false ∨
      ((w.entered r).runner r).model = none := by
    rw [World.runner_entered]
    exact h
  rw [occupy_eq]
  change (((reactTo app calls r m).run (w.entered r)).1,
    ((reactTo app calls r m).run (w.entered r)).2.left r) = _
  rw [reactTo_of_inactive hentered]

/-- What a call does to its own runner. -/
theorem occupy_dormant (hgrows : ∀ r c, Effect.Within Grows (calls r c)) (c : Call S) :
    Effect.Within (Dormant r) (occupy app calls r c) := by
  intro w _
  have hidle : ((occupy app calls r c w).2.runner r).activity = .idle := by
    rw [occupy_eq]
    dsimp only
    rw [World.runner_left]
  obtain ⟨events, hevents⟩ := occupy_journal app hgrows c w (r := r)
  cases c with
  | react m =>
    by_cases hstopped : (w.runner r).running = false
    · rw [occupy_of_inactive (.inl hstopped)] at hidle ⊢
      refine ⟨[.left r, .entered r], rfl, hidle, fun _ => ⟨sleeps_of_triggers ?_, fun _ => ?_⟩⟩
      · simp [Event.trigger?]
      · rw [World.runner_left, World.runner_entered]
        exact hstopped
    · exact ⟨.left r :: (events ++ [.entered r]), by rw [hevents]; simp [Call.opening], hidle,
        fun h => absurd h hstopped⟩
  | run name =>
    have hsleeps : Sleeps r [.ran r name, .entered r] :=
      sleeps_of_triggers (by simp [Event.trigger?])
    refine ⟨.left r :: events ++ [.ran r name, .entered r], ?_, hidle, fun _ =>
      ⟨sleeps_of_ran hsleeps, fun hran => ?_⟩⟩
    · rw [hevents]
      simp [Call.opening]
    · have hnone := hran (.ran r name) (by simp)
      simp [Event.ran?] at hnone

theorem refuse_dormant (r' : RunnerId S) : Effect.Within (Dormant r) (refuse r') := by
  intro w
  obtain ⟨events, hjournal, hapart⟩ := refuse_apart r r' w
  exact dormant_of_apart events hjournal hapart

/-- **From outside of its calls, a runner that was stopped lets no step react**, until it is run. -/
theorem callWithin_dormant (app : Application S) (depth : Nat) (r' : RunnerId S) (c : Call S) :
    Effect.Within (Dormant r) (callWithin app depth r' c) := by
  induction depth generalizing r' c with
  | zero => exact refuse_dormant r'
  | succ depth ih =>
    have hR := (composes_dormant r).sequential
    refine hR.callWithin (refuse_dormant r') ?_
    by_cases h : r' = r
    · subst h
      exact occupy_dormant (callWithin_grows app depth) c
    · exact (primitives_dormant ih h).occupy hR c

/-- So does whatever is done from outside of calls. -/
theorem operations_dormant (app : Application S) (operations : List (Operation S)) (w : World S) :
    Dormant r w (operations.foldl (Operation.apply app) w) := by
  refine (composes_dormant r).operations (fun o w => ?_) operations w
  exact o.apply_within (composes_dormant r) (fun _ _ h => h.dormant) app
    (callWithin_dormant app S.runners) w

end Dormant

/-! ## Calls in progress -/

/-- While the runner is in a call, the effect comes to the same if the runner was stopped, and the
runner stays stopped and in the call. -/
def Effect.Unheeding (r : RunnerId S) {α : Type} (p : Effect S α) : Prop :=
  ∀ w, (w.runner r).activity ≠ .idle →
    p (w.stopped r) = ((p w).1, (p w).2.stopped r) ∧ ((p w).2.runner r).activity ≠ .idle

section Unheeding

variable {r : RunnerId S} {app : Application S} {calls : Calls S}

theorem World.runner_stopped (w : World S) (r r' : RunnerId S) :
    (w.stopped r).runner r' =
      if r = r' then { w.runner r' with running := false } else w.runner r' :=
  w.runner_unseen r .halted [] r'

theorem sequential_unheeding (r : RunnerId S) : Sequential (Effect.Unheeding r) where
  pure a w hbusy := ⟨rfl, hbusy⟩
  bind hp hf w hbusy := by
    obtain ⟨hsame, hbusy⟩ := hp w hbusy
    rw [Effect.run_bind, hsame]
    exact hf w _ hbusy
  state w hbusy := ⟨rfl, hbusy⟩
  look r' f hblind hf w hbusy := by
    have hlook : f ((w.stopped r).runner r') = f (w.runner r') := by
      rw [World.runner_stopped]
      split
      · exact hblind _ false (w.runner r').hook (w.runner r').recording
      · rfl
    rw [Effect.run_bind]
    change f ((w.stopped r).runner r') (w.stopped r) = _ ∧ _
    rw [hlook]
    exact hf w w hbusy

theorem unheeding_modifyRunner {r' : RunnerId S} {f : Runner S → Runner S}
    (hblind : ∀ x running, f { x with running } = { f x with running })
    (hbusy : ∀ x, x.activity ≠ .idle → (f x).activity ≠ .idle) :
    Effect.Unheeding r (Effect.modifyRunner r' f) := by
  intro w h
  refine ⟨modifyRunner_unseen r .halted [] r' f (fun x => hblind x false) w, ?_⟩
  rw [runner_modifyRunner]
  split
  · exact hbusy _ h
  · exact h

theorem unheeding_note (e : Event S) : Effect.Unheeding r (Effect.note e) :=
  fun _ hbusy => ⟨rfl, hbusy⟩

theorem perform_unheeding (hcalls : ∀ r' c, Effect.Unheeding r (calls r' c)) (q : Request S) :
    Effect.Unheeding r (perform app calls q) := by
  by_cases hq : ∃ r' c, q = .call r' c
  · obtain ⟨r', c, rfl⟩ := hq
    exact hcalls r' c
  · intro w hbusy
    refine ⟨perform_unseen r .halted [] app calls calls q (fun r' c h => hq ⟨r', c, h⟩) (.inl rfl),
      ?_⟩
    refine perform_within (R := fun w w' => (w.runner r).activity ≠ .idle →
      (w'.runner r).activity ≠ .idle) (fun w w' haside hbusy => ?_) app
      (fun r' c w hbusy => (hcalls r' c w hbusy).2) q w hbusy
    obtain ⟨events, -, -, hapart⟩ := haside
    rw [(hapart r).session.activity]
    exact hbusy

/-- A session makes its changes and notes whether its runner was stopped or not. -/
theorem Session.primitives_unheeding {s : Session S}
    (hcalls : ∀ r' c, Effect.Unheeding s.runner (calls r' c)) :
    s.Primitives app calls (Effect.Unheeding s.runner) where
  userCode := (sequential_unheeding s.runner).userCode app calls s (perform_unheeding hcalls)
  change f hf := unheeding_modifyRunner hf.blind fun x hbusy => by
    rw [hf.rest x]
    exact hbusy
  start step _ m := (sequential_unheeding s.runner).bind
    (unheeding_modifyRunner (fun _ _ => rfl) fun _ _ => nofun) fun _ => unheeding_note _
  note e _ _ := unheeding_note e

/-- A call on another runner does not look at the runner. -/
theorem primitives_unheeding (hcalls : ∀ r' c, Effect.Unheeding r (calls r' c))
    {r' : RunnerId S} (h : r' ≠ r) : Primitives app calls r' (Effect.Unheeding r) where
  perform := perform_unheeding hcalls
  look hf w hbusy := by
    rw [Effect.run_bind, Effect.run_bind]
    dsimp only [Effect.runner]
    rw [World.runner_stopped, if_neg (Ne.symm h)]
    exact hf w w hbusy
  modify f w hbusy := by
    refine ⟨?_, ?_⟩
    · change ((), (w.stopped r).setRunner r' (f ((w.stopped r).runner r'))) = _
      rw [World.runner_stopped, if_neg (Ne.symm h)]
      unfold Effect.modifyRunner World.stopped
      dsimp only
      rw [World.setRunner_comm w (Ne.symm h), World.runner_setRunner_of_ne w h]
    · rw [runner_modifyRunner, if_neg h]
      exact hbusy
  note e _ := unheeding_note e

/-- **A call in progress does not heed that its runner is stopped**, nor do the calls that it
makes. -/
theorem callWithin_unheeding (app : Application S) (depth : Nat) (r' : RunnerId S) (c : Call S) :
    Effect.Unheeding r (callWithin app depth r' c) := by
  have hΦ := sequential_unheeding r
  have hrefuse (r' : RunnerId S) : Effect.Unheeding r (refuse r') :=
    hΦ.refuse fun _ => unheeding_note _
  induction depth generalizing r' c with
  | zero => exact hrefuse r'
  | succ depth ih =>
    by_cases h : r' = r
    · subst h
      intro w hbusy
      have hstopped : ((w.stopped r').runner r').activity ≠ .idle := by
        rw [World.runner_stopped, if_pos rfl]
        exact hbusy
      rw [callWithin_of_busy app (depth + 1) r' c w hbusy,
        callWithin_of_busy app (depth + 1) r' c (w.stopped r') hstopped]
      exact hrefuse r' w hbusy
    · exact hΦ.callWithin (hrefuse r') ((primitives_unheeding ih h).occupy hΦ c)

end Unheeding

/-! ## Inspection -/

/-- **An inspection does not heed that the runner was stopped**, if its guards do nothing. -/
theorem inquire_stopped {app : Application S} {depth : Nat} {r : RunnerId S} {w : World S}
    (hkeep : GuardsKeep app (callWithin app depth) r w) (type : MessageType) :
    inquire app (callWithin app depth) ⟨r, type⟩ (w.stopped r) =
      ((inquire app (callWithin app depth) ⟨r, type⟩ w).1, w.stopped r) := by
  cases hmodel : (w.runner r).model with
  | none =>
    have hstopped : ((w.stopped r).runner r).model = none := by
      rw [World.runner_stopped, if_pos rfl]
      exact hmodel
    rw [inquire_of_unbound app _ type hmodel, inquire_of_unbound app _ type hstopped]
  | some name =>
    have hguard (g : Guard S) (hg : (app.model name).HasGuard g) :
        evalGuard app (callWithin app depth) g (w.stopped r) =
          ((evalGuard app (callWithin app depth) g w).1, w.stopped r) := by
      have hw := hkeep name hmodel g hg
      have hunseen := evalGuard_unseen r .halted [] app (callWithin_noted app depth)
        (callWithin_grows app depth) (callWithin app depth) g (congrArg World.journal hw)
      rw [hw] at hunseen
      exact hunseen
    have hrunner : (w.stopped r).runner r = { w.runner r with running := false } := by
      rw [World.runner_stopped, if_pos rfl]
    have hkeep' : GuardsKeep app (callWithin app depth) r (w.stopped r) := by
      intro name' hname g hg
      rw [hrunner] at hname
      obtain rfl : name = name' := Option.some.inj (hmodel.symm.trans hname)
      exact congrArg Prod.snd (hguard g hg)
    have hsame (g : Guard S) (hg : (app.model name).HasGuard g) := congrArg Prod.fst (hguard g hg)
    rw [inquire_of_quiet hkeep hmodel, inquire_of_quiet hkeep' (by rw [hrunner]; exact hmodel),
      candidates_congr _ _ _ _ hsame, hrunner]

/-! ## What stopping does -/

theorem callWithin_of_inactive (app : Application S) (depth : Nat) {r : RunnerId S} (m : Message)
    {w : World S} (hidle : (w.runner r).activity = .idle)
    (h : (w.runner r).running = false ∨ (w.runner r).model = none) :
    callWithin app (depth + 1) r (.react m) w = (.ok none, (w.entered r).left r) := by
  rw [callWithin_of_idle app depth r (.react m) hidle, occupy_of_inactive h]

/-- **What stopping a runner does.** Between calls, a runner that was stopped lets no step react, as
long as it is not run again: it is asked to react, and nothing comes of it. A call in progress does
not heed it. Whatever the call has still to do, it does as if the runner had not been stopped: user
code, steps that are executed, and system steps that follow. Nor does an inspection heed it, as
long as guards do nothing: it names the steps that could react if the runner had not been
stopped.

This goes for code as `Request` has it, which cannot ask whether a runner is running. -/
theorem stopping_spec (app : Application S) (r : RunnerId S) :
    (∀ calls w, perform app calls (.stop r) w = ((), w.stopped r)) ∧
    (∀ w : World S, (w.runner r).activity = .idle → (w.runner r).running = false →
      (∀ depth m, callWithin app (depth + 1) r (.react m) w = (.ok none, (w.entered r).left r)) ∧
      ∀ (operations : List (Operation S)) since,
        since ++ w.journal <:+ (operations.foldl (Operation.apply app) w).journal →
        (∀ e ∈ since, e.ran? r = none) → triggers r since = []) ∧
    (∀ depth, (∀ (α : Type) (p : Action S α),
        Effect.Unheeding r (exec app (callWithin app depth) p)) ∧
      ∀ s : Session S, s.runner = r →
        (∀ step ∈ s.model.steps, ∀ m,
          Effect.Unheeding r (s.execute app (callWithin app depth) step m).run) ∧
        ∀ left pending,
          Effect.Unheeding r (s.continueWith app (callWithin app depth) left pending).run) ∧
    ∀ depth type w, GuardsKeep app (callWithin app depth) r w →
      inquire app (callWithin app depth) ⟨r, type⟩ (w.stopped r) =
          ((inquire app (callWithin app depth) ⟨r, type⟩ w).1, w.stopped r) ∧
        canReact app (callWithin app depth) ⟨r, type⟩ (w.stopped r) =
          ((canReact app (callWithin app depth) ⟨r, type⟩ w).1, w.stopped r) := by
  have hΦ := sequential_unheeding r
  refine ⟨fun _ _ => rfl, fun w hidle hstopped => ⟨fun depth m => ?_, ?_⟩, fun depth => ⟨?_, ?_⟩,
    fun depth type w hkeep => ⟨inquire_stopped hkeep type, ?_⟩⟩
  · exact callWithin_of_inactive app depth m hidle (.inl hstopped)
  · intro operations since hsuffix hran
    obtain ⟨events, hevents, -, hsleeps⟩ := operations_dormant app operations w hidle
    rw [hevents] at hsuffix
    obtain ⟨before, hbefore⟩ := hsuffix
    rw [← List.append_assoc] at hbefore
    exact (hsleeps hstopped).1 since ⟨before, List.append_cancel_right hbefore⟩ hran
  · exact fun α p => hΦ.exec app _ (perform_unheeding (callWithin_unheeding app depth)) p
  · rintro s rfl
    have hparts : s.Parts app (callWithin app depth) (Effect.Unheeding s.runner) :=
      (Session.primitives_unheeding (callWithin_unheeding app depth)).parts hΦ
    exact ⟨fun step hstep m => hparts.execute hΦ hstep m,
      fun left pending => hparts.continueWith hΦ left pending⟩
  · unfold canReact
    rw [Effect.run_bind, Effect.run_bind, inquire_stopped hkeep type]
    rfl

namespace Office

theorem not_hasGuard (i : Fin 2) (g : Guard signature) : ¬ (application.model i).HasGuard g := by
  have hguards : (application.model i).steps.map (·.guard) = List.replicate 3 none := rfl
  have hconditions : (application.model i).steps.map (·.repeatWhile) = List.replicate 3 none := rfl
  have hflows : (application.model i).flows.map (·.guard) = List.replicate 2 none := rfl
  rintro (⟨s, hs, h | h⟩ | ⟨f, hf, h⟩)
  · have hmem := hguards ▸ List.mem_map_of_mem (f := Step.guard) hs
    simp [h] at hmem
  · have hmem := hconditions ▸ List.mem_map_of_mem (f := Step.repeatWhile) hs
    simp [h] at hmem
  · have hmem := hflows ▸ List.mem_map_of_mem (f := Flow.guard) hf
    simp [h] at hmem

theorem guardsKeep (calls : Calls signature) (r : RunnerId signature) (w : World signature) :
    GuardsKeep application calls r w :=
  fun _ _ g hg => absurd hg (not_hasGuard _ g)

end Office

/-- The clerk who has closed does not take a letter. When the clerk is stopped as soon as work
begins, the same system steps follow as otherwise; and the inspection tells of letters either
way. -/
theorem stopping_spec_in_office :
    (Office.closed.runner (Office.clerk 0)).activity = .idle ∧
      (Office.closed.runner (Office.clerk 0)).running = false ∧
      (call Office.application (Office.clerk 0) (.react Office.letter) Office.closed).1 = .ok none ∧
      triggers (Office.clerk 0) [.left (Office.clerk 0), .entered (Office.clerk 0)] = [] ∧
      Effect.Unheeding (Office.clerk 0) (exec Office.application (call Office.application)
        (Action.request (.stop (Office.clerk 0)))) ∧
      inquire Office.application (call Office.application) ⟨Office.clerk 0, Office.letterType⟩
          (Office.closed.stopped (Office.clerk 0)) =
        ((inquire Office.application (call Office.application)
          ⟨Office.clerk 0, Office.letterType⟩ Office.closed).1,
          Office.closed.stopped (Office.clerk 0)) := by
  have hidle : (Office.closed.runner (Office.clerk 0)).activity = .idle := by decide +kernel
  have hstopped : (Office.closed.runner (Office.clerk 0)).running = false := by decide +kernel
  obtain ⟨-, hbetween, hduring, hinspection⟩ :=
    stopping_spec Office.application (Office.clerk 0)
  obtain ⟨hreact, hsleeps⟩ := hbetween Office.closed hidle hstopped
  have hletter : call Office.application (Office.clerk 0) (.react Office.letter) Office.closed =
      (.ok none, (Office.closed.entered (Office.clerk 0)).left (Office.clerk 0)) :=
    hreact 1 Office.letter
  have hafter : [Operation.request (.call (Office.clerk 0) (.react Office.letter))].foldl
      (Operation.apply Office.application) Office.closed =
        (Office.closed.entered (Office.clerk 0)).left (Office.clerk 0) :=
    congrArg Prod.snd hletter
  have hquiet := hsleeps [.request (.call (Office.clerk 0) (.react Office.letter))]
    [.left (Office.clerk 0), .entered (Office.clerk 0)] (by rw [hafter]; exact List.suffix_refl _)
    (by simp [Event.ran?])
  exact ⟨hidle, hstopped, congrArg Prod.fst hletter, hquiet, (hduring 2).1 _ _,
    (hinspection 2 Office.letterType Office.closed (Office.guardsKeep _ _ _)).1⟩

/-- **A clerk who was stopped goes on, and is said to take letters.** Closing stops the clerk, and
still locking up is triggered afterwards. Then a letter is said to be passed on, but it is not. -/
theorem stopping_ignored :
    (∀ calls m w, (((Office.spec 0).assemble.steps.head?).map fun step =>
      ((Session.execReaction Office.application calls step m w).2.runner
        (Office.clerk 0)).running) = some false) ∧
    (Office.closed.runner (Office.clerk 0)).running = false ∧
    triggers (Office.clerk 0) Office.closed.journal =
      [(⟨0⟩, Office.bell), (⟨1⟩, .systemEvent)] ∧
    (inquire Office.application (call Office.application) ⟨Office.clerk 0, Office.letterType⟩
      Office.closed).1.toOption = some ["Pass on"] ∧
    (canReact Office.application (call Office.application) ⟨Office.clerk 0, Office.letterType⟩
      Office.closed).1.toOption = some true ∧
    (call Office.application (Office.clerk 0) (.react Office.letter) Office.closed).1 =
      .ok none := by
  refine ⟨fun calls m w => ?_, by decide +kernel, by decide +kernel, by decide +kernel,
    by decide +kernel, by decide +kernel⟩
  change some ((w.stopped (Office.clerk 0)).runner (Office.clerk 0)).running = some false
  rw [World.runner_stopped, if_pos rfl]

end UseCaseEngine
