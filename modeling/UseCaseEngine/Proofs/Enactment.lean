import UseCaseEngine.Proofs.Resolutions

/-!
# Where steps take effect

A step that reacted without a failure has its effect (`apply_reaction`) in some world of the
runner's call, where the step has just been reached. Conditions for repeating are asked there, and
may change the world. Right after that the turn is noted, and it led where the effect did.

Out of scope: what comes of the effect, which `Repeats` says of the conditions and `Targets` of
continuations.

* `EnactedBy`: what a turn that is noted came about by.
* **`enacted_of_reachable`**: every turn in a journal came about like this.
-/

namespace UseCaseEngine

variable {S : Signature}

section Enacted

variable (app : Application S) (r : RunnerId S)

/-- A step of the runner's model took its turn: its effect took place in this world, where the step
had been reached, and led where the turn did, and the turn was noted right after. -/
structure EnactedBy (name : S.ModelName) (step : Step (code S)) (t : Turn) (w : World S)
    (before : List (Event S)) : Prop where
  bound : ranModel? r before = some name
  listed : (app.model name).step? t.step = some step
  working : (w.runner r).working = (cursorAt app r before).reached step
  /-- Nothing was noted since the step reacted, and the state is what it was then. -/
  reacted : ∃ earlier, w.journal = .reacted r t.step t.message t.output w.state :: earlier
  effect : ∃ depth c after applied,
    (w.runner r).working.apply (evalGuard app (callWithin app depth)) (app.model name) step w =
      ((c, applied), after) ∧
    c = cursorAt app r (.moved r t :: before) ∧ after.journal = before

/-- What is noted is no turn of the runner, or one of a step that failed, or it came about by the
effect of its step. -/
def Enacts (e : Event S) (before : List (Event S)) : Prop :=
  ∀ t message, e = .moved r t → t.output = .ok message →
    ∃ name step w, EnactedBy app r name step t w before

variable {app r}

theorem enacts_of_quiet {e : Event S} (he : e.turn? r = none) (before : List (Event S)) :
    Enacts app r e before := by
  rintro t message rfl
  simp [Event.turn?] at he

theorem enacts_of_foreign (e : Event S) (he : e.session? ≠ some r) (before : List (Event S)) :
    Enacts app r e before :=
  enacts_of_quiet (foreign_turn? he) before

theorem enacts_of_failure {t : Turn} {failure : Failure} (houtput : t.output = .error failure)
    (before : List (Event S)) : Enacts app r (.moved r t) before := by
  intro t' message heq hok
  cases heq
  cases houtput.symm.trans hok

theorem EnactedBy.enacts {name : S.ModelName} {step : Step (code S)} {t : Turn} {w : World S}
    {before : List (Event S)} (h : EnactedBy app r name step t w before) :
    Enacts app r (.moved r t) before := by
  intro t' message heq _
  cases heq
  exact ⟨name, step, w, h⟩

end Enacted

/-! ## Calls enact their turns -/

section Calls

variable {app : Application S} {r : RunnerId S} {name : S.ModelName}

/-- A step that reacted stands where the call stood, reached. -/
theorem Reacts.poised {step : Step (code S)} {m : Message} {output : Output} {w w₂ : World S}
    (h : Reacts r step m output w w₂) (hpoised : Poised app r name w)
    (henacts : Throughout (Enacts app r) w.journal) :
    (w₂.runner r).activity ≠ .idle ∧ ranModel? r w₂.journal = some name ∧
      (w₂.runner r).working = (cursorAt app r w₂.journal).reached step ∧
      Throughout (Enacts app r) w₂.journal := by
  have hworking := h.working hpoised.engaged
  obtain ⟨w₁, hpause, hreacted, hreached⟩ := h
  obtain ⟨events, hjournal, hlull⟩ := hpause hpoised.engaged.busy
  have hnone := readOff_eq_nil_iff.mp hlull.turns
  have hsame : cursorAt app r w₁.journal = cursorAt app r w.journal := by
    rw [hjournal]
    exact cursorAt_append_of_quiet app hlull.turns hlull.ran
  have hran : ranModel? r w₁.journal = some name := by
    rw [hjournal, ranModel?_append r hlull.ran]
    exact hpoised.bound
  have hsingle : ∀ e ∈ [(.reacted r step.id m output w₂.state : Event S)], e.ran? r = none :=
    List.forall_mem_singleton.mpr rfl
  refine ⟨?_, ?_, ?_, ?_⟩
  · rw [hreached]
    change (w₁.runner r).activity ≠ .idle
    rw [hlull.session.activity]
    exact hpoised.engaged.busy
  · rw [hreacted]
    exact (ranModel?_append r hsingle w₁.journal).trans hran
  · rw [hreacted, hworking, hpoised.cursor, ← hsame]
    exact congrArg (Cursor.reached · step) (cursorAt_append_of_quiet app rfl hsingle).symm
  · rw [hreacted, hjournal]
    exact (henacts.append fun e he => enacts_of_quiet (hnone e he)).note (enacts_of_quiet rfl _)

section Session

variable {s : Session S}

theorem deliver_enacts (depth : Nat) (step : Step (code S)) (message : Option Message) {w : World S}
    (hbusy : (w.runner s.runner).activity ≠ .idle)
    (h : Throughout (Enacts app s.runner) w.journal) :
    Throughout (Enacts app s.runner)
      ((s.deliver app (callWithin app depth) step message).run w).2.journal := by
  have hdelivered := deliver_tells app s (perform_undisturbed app s.runner depth) false step message
  refine (hdelivered.mono fun _ events htold => ?_).throughout enacts_of_foreign hbusy h
  rcases htold with ⟨-, -, rfl⟩ | ⟨_, _, _, _, -, -, -, rfl⟩
  · exact List.forall_mem_nil _
  · exact List.forall_mem_singleton.mpr (enacts_of_quiet rfl)

variable {depth : Nat} (hmodel : s.model = app.model name)
include hmodel

/-- **A step that did not fail** has its effect, and then its turn is noted. -/
theorem applied_enacts {step : Step (code S)} (hstep : s.model.step? step.id = some step)
    {m : Message} {message : Option Message} {w w₂ : World S}
    (hpoised : Poised app s.runner name w)
    (henacts : Throughout (Enacts app s.runner) w.journal)
    (hreacts : Reacts s.runner step m (.ok message) w w₂) :
    Throughout (Enacts app s.runner)
      ((s.follow app (callWithin app depth) step m (.ok message)).run w₂).2.journal := by
  -- Between the reaction and the turn only conditions for repeating are asked.
  obtain ⟨hbusy₂, hbound₂, hworking, henacts₂⟩ := hreacts.poised hpoised henacts
  obtain ⟨answers, applied, c, w₃, heffect, happly, hundisturbed, htold⟩ :=
    applyReaction_spec app s (perform_undisturbed app s.runner depth) step w₂
  obtain ⟨hbusy, hbound, hcursor⟩ := hundisturbed.tells_same app hbusy₂
  rw [hbound₂] at hbound
  rw [← hcursor] at hworking
  have hreacted : ∃ earlier,
      w₂.journal = .reacted s.runner step.id m (.ok message) w₂.state :: earlier := by
    obtain ⟨w₁, -, hjournal, -⟩ := hreacts
    exact ⟨w₁.journal, hjournal⟩
  have hby : EnactedBy app s.runner name step ⟨step.id, m, .ok message, answers⟩ w₂ w₃.journal := by
    refine ⟨hbound, hmodel ▸ hstep, hworking, hreacted, depth, c, w₃, applied, hmodel ▸ heffect,
      ?_, rfl⟩
    rw [cursorAt_moved app hbound, after_of_apply (hmodel ▸ hstep) rfl, ← hworking, ← hmodel, htold]
  unfold Session.follow
  rw [Attempt.run_lift_bind, happly]
  dsimp only
  rw [Attempt.run_lift_bind]
  generalize hw' : (s.commit ⟨step.id, m, .ok message, answers⟩
    (Effect.modifyRunner s.runner (fun x => { x with working := c }) w₃).2).2 = w'
  have henacts' : Throughout (Enacts app s.runner) w'.journal := by
    rw [← hw']
    exact (hundisturbed.throughout enacts_of_foreign hbusy₂ henacts₂).note hby.enacts
  have hbusy' : (w'.runner s.runner).activity ≠ .idle := by
    rw [← hw', runner_commit, runner_modifyRunner_self]
    exact hbusy
  cases applied with
  | error e => exact henacts'
  | ok _ =>
    have hdelivered := deliver_enacts depth step message hbusy' henacts'
    change Throughout (Enacts app s.runner) ((s.deliver app (callWithin app depth) step message >>=
      fun left => pure (Reacted.published left) : Attempt S Reacted).run w').2.journal
    rw [Attempt.run_bind]
    generalize (s.deliver app (callWithin app depth) step message).run w' = result
      at hdelivered ⊢
    obtain ⟨e | left, w''⟩ := result
    · exact hdelivered
    · exact hdelivered

/-- **A step that is offered** takes its turn by its effect, if it takes one and does not fail. -/
theorem offer_enacts {step : Step (code S)} (hstep : s.model.step? step.id = some step)
    (m : Message) {w : World S} (hpoised : Poised app s.runner name w)
    (henacts : Throughout (Enacts app s.runner) w.journal) :
    Throughout (Enacts app s.runner)
      ((s.offer app (callWithin app depth) step m).run w).2.journal := by
  obtain ⟨w₀, hw₀, hoffered⟩ :=
    offer_reacts app s (perform_undisturbed app s.runner depth) step m w
  have hstarted : Poised app s.runner name w₀ :=
    (hw₀ ▸ hmodel ▸ started_told s step w : Told (app.model name) s.runner w w₀).poised hpoised
  have henacts₀ : Throughout (Enacts app s.runner) w₀.journal := by
    rw [hw₀]
    exact henacts
  obtain ⟨w₁, hpause, hoffer⟩ | ⟨output, w₂, hreacts, hoffer⟩ := hoffered
  all_goals rw [hoffer]
  · obtain ⟨events, hjournal, hlull⟩ := hpause hstarted.engaged.busy
    rw [hjournal]
    exact henacts₀.append fun e he =>
      enacts_of_quiet (readOff_eq_nil_iff.mp hlull.turns e he)
  · cases output with
    | ok message => exact applied_enacts hmodel hstep hstarted henacts₀ hreacts
    | error failure =>
      exact (hreacts.poised hstarted henacts₀).2.2.2.note (enacts_of_failure rfl _)

end Session

variable (r) in
theorem upheld_enacts (hbuilt : app.Built) : Upheld app r (Enacts app r) where
  foreign := enacts_of_foreign
  outer e h := by
    refine enacts_of_quiet ?_
    cases e <;> first | rfl | cases h
  parts depth name s hs hmodel := by
    subst hs
    have hplaced : s.model.Placed := hmodel ▸ placed_of_build (hbuilt name)
    have hperform := perform_undisturbed app s.runner depth
    have htold := hmodel ▸ parts_told app s hperform hplaced
    refine ⟨fun type scope w => ⟨htold.resolve type scope w, fun hpoised h => ?_⟩,
      fun step hstep m w => ⟨htold.offer step hstep m w, offer_enacts hmodel
        (hplaced.step?_self hstep) m⟩, fun m w => ⟨htold.publish m w, fun hpoised h => ?_⟩⟩
    · refine ((resolve_found app s hperform false type scope).mono fun _ events hfound e he =>
        enacts_of_quiet ?_).throughout enacts_of_foreign hpoised.engaged.busy h
      cases hfound <;> simp_all [Event.turn?]
    · refine ((publish_published app s hperform false m).mono fun _ events hpublished e he =>
        enacts_of_quiet ?_).throughout enacts_of_foreign hpoised.engaged.busy h
      cases hpublished <;> simp_all [Event.turn?]

/-- **Every turn in a journal** of a step that did not fail came about by the effect of its step. -/
theorem enacted_of_reachable (hbuilt : app.Built) {w : World S} (h : Reachable app w)
    (r : RunnerId S) : Throughout (Enacts app r) w.journal :=
  (upheld_enacts r hbuilt).of_reachable hbuilt h

end Calls

end UseCaseEngine
