import UseCaseEngine.Proofs.Reach
import UseCaseEngine.Proofs.Settling

/-!
# Cursors are well formed

A cursor holds places of steps and use cases, and the runner looks them up without asking whether
there is anything (`step`, `flow`, `use_case`). `Cursor.WellFormed` says that they lead somewhere,
and what stands there: a frame was pushed by a step that includes the frame's use case, and a step
that is marked as the next one is the first of its flow, marked by the latest step.

* `wellFormed_after`: every turn keeps a cursor well formed.
* `Cursor.InRange`, `Model.InRange`: what the runner looks up, starting from a cursor and from the
  steps of its model, is there.
* **`wellFormed_of_reachable`**: every cursor of every runner is well formed at every moment, for
  the model that the runner runs then.
-/

namespace UseCaseEngine

variable {C : Code}

/-- The places that a cursor holds are places of the model, and they came about as they must. -/
structure Cursor.WellFormed (model : Model C) (c : Cursor) : Prop where
  latest : ∀ id, c.latest = some id → ∃ s, model.step? id = some s
  frames : ∀ f ∈ c.frames, ∃ s name u, model.step? f.includeStep = some s ∧
    s.reaction = .includeUseCase name ∧ model.useCaseNamed? name = some u ∧ f.included = u.id
  continueAt : ∀ id, c.continueAt = some id → ∃ target flow source name,
    model.step? id = some target ∧ model.flow? target.flow = some flow ∧
      flow.steps.head? = some id ∧ target.previous = none ∧
        (c.latest.bind model.step? = some source ∧ source.reaction = .continueAt name ∧
          model.resolve name = .ok target)

section After

variable {model : Model C} {c : Cursor}

theorem wellFormed_empty : ({} : Cursor).WellFormed model :=
  ⟨fun _ h => (nomatch h), fun _ h => (nomatch h), fun _ h => (nomatch h)⟩

theorem Cursor.WellFormed.step?_of_frame (h : c.WellFormed model) {f : Frame}
    (hf : f ∈ c.frames) : ∃ s, model.step? f.includeStep = some s := by
  obtain ⟨s, _, _, hs, -⟩ := h.frames f hf
  exact ⟨s, hs⟩

theorem wellFormed_reached (h : c.WellFormed model) {s : Step C} (hs : model.step? s.id = some s) :
    (c.reached s).WellFormed model := by
  refine ⟨fun id hid => ?_, h.frames, fun id hid => nomatch hid⟩
  cases hid
  exact ⟨s, hs⟩

theorem wellFormed_enter (h : c.WellFormed model) {s : Step C} (hs : model.step? s.id = some s)
    {name : String} {u : UseCase} (hreaction : s.reaction = .includeUseCase name)
    (hu : model.useCaseNamed? name = some u) : (c.enter s u.id).WellFormed model := by
  refine ⟨h.latest, fun f hf => ?_, h.continueAt⟩
  rcases List.mem_cons.mp hf with rfl | hf
  · exact ⟨s, name, u, hs, hreaction, hu, rfl⟩
  · exact h.frames f hf

theorem mem_of_mem_unwind {useCase : UseCaseId} {frames : List Frame} {f : Frame}
    (h : f ∈ Cursor.unwind useCase frames) : f ∈ frames :=
  (Cursor.unwind_suffix useCase frames).subset h

theorem stepNamed?_of_resolve {name : String} {target : Step C}
    (h : model.resolve name = .ok target) : model.stepNamed? name = some target := by
  unfold Model.resolve at h
  cases hfound : model.stepNamed? name with
  | none =>
    rw [hfound] at h
    cases h
  | some found =>
    rw [hfound] at h
    cases h
    rfl

theorem wellFormed_continuedAt (hplaced : model.Placed) (h : c.WellFormed model) {s target : Step C}
    (hs : model.step? s.id = some s) {name : String} (hreaction : s.reaction = .continueAt name)
    (htarget : model.resolve name = .ok target) (hclear : c.continueAt = none) :
    (c.continuedAt s target).WellFormed model := by
  have hmem := Model.mem_steps_of_stepNamed? (stepNamed?_of_resolve htarget)
  have hframes : ∀ f ∈ Cursor.unwind target.useCase c.frames, ∃ s name u,
      model.step? f.includeStep = some s ∧ s.reaction = .includeUseCase name ∧
        model.useCaseNamed? name = some u ∧ f.included = u.id :=
    fun f hf => h.frames f (mem_of_mem_unwind hf)
  unfold Cursor.continuedAt
  cases hprevious : target.previous with
  | some previous =>
    refine ⟨fun id hid => ?_, hframes, fun id hid => ?_⟩
    · cases hid
      obtain ⟨q, hq, -⟩ := hplaced.step?_of_previous hmem hprevious
      exact ⟨q, hq⟩
    · dsimp only at hid
      rw [hclear] at hid
      cases hid
  | none =>
    refine ⟨fun id hid => ?_, hframes, fun id hid => ?_⟩
    · cases hid
      exact ⟨s, hs⟩
    · cases hid
      obtain ⟨flow, hflow, -, -, hhead⟩ := hplaced.flow?_of_step hmem
      exact ⟨target, flow, s, name, hplaced.step?_self hmem, hflow, hhead.mp hprevious, hprevious,
        hs, hreaction, htarget⟩

theorem wellFormed_continuedAfter (hplaced : model.Placed) (h : c.WellFormed model)
    {target : Step C} (hmem : target ∈ model.steps) (hclear : c.continueAt = none) :
    (c.continuedAfter target).WellFormed model := by
  refine ⟨fun id hid => ?_, fun f hf => h.frames f (mem_of_mem_unwind hf), fun id hid => ?_⟩
  · cases hid
    exact ⟨target, hplaced.step?_self hmem⟩
  · exact absurd (hclear.symm.trans hid) nofun

/-- A step that had its effect leaves the cursor well formed, also if its reference leads
nowhere. -/
theorem wellFormed_apply (hplaced : model.Placed) (h : c.WellFormed model) {s : Step C}
    (hs : model.step? s.id = some s) (answers : List Bool) :
    ((c.reached s).apply told model s answers).1.1.WellFormed model := by
  have hreached := wellFormed_reached h hs
  have hsettle : ({ c.reached s with
      latest := some (settle told model s c.frames answers).1.1
      frames := (settle told model s c.frames answers).1.2 } : Cursor).WellFormed model := by
    obtain ⟨last, left, unused, hresult, hsettles⟩ :=
      exists_settles told (fun f hf => h.step?_of_frame hf) s answers
    rw [hresult]
    refine ⟨fun id hid => ?_, fun f hf => h.frames f (hsettles.suffix.subset hf), fun id hid => ?_⟩
    · cases hid
      exact ⟨last, hsettles.step?_last hs hplaced.step_id⟩
    · cases hid
  unfold Cursor.apply
  cases hreaction : s.reaction with
  | idle => exact hsettle
  | function code => exact hsettle
  | includeUseCase name =>
    dsimp only
    cases hu : model.useCaseNamed? name with
    | none => exact hreached
    | some u => exact wellFormed_enter hreached hs hreaction hu
  | continueAt name =>
    dsimp only
    cases htarget : model.resolve name with
    | error e => exact hreached
    | ok target => exact wellFormed_continuedAt hplaced hreached hs hreaction htarget rfl
  | continueAfter name =>
    dsimp only
    cases htarget : model.resolve name with
    | error e => exact hreached
    | ok target =>
      have hmem := Model.mem_steps_of_stepNamed? (stepNamed?_of_resolve htarget)
      exact wellFormed_continuedAfter hplaced hreached hmem rfl

/-- **Every turn keeps a cursor well formed.** -/
theorem wellFormed_after (hplaced : model.Placed) (h : c.WellFormed model) (t : Turn) :
    (c.after model t).WellFormed model := by
  cases hstep : model.step? t.step with
  | none =>
    unfold Cursor.after
    rw [hstep]
    exact h
  | some s =>
    have hs : model.step? s.id = some s := by
      rw [hplaced.step_id hstep]
      exact hstep
    cases houtput : t.output with
    | error failure =>
      rw [after_of_failure hstep houtput]
      exact wellFormed_reached h hs
    | ok message =>
      rw [after_of_apply hstep houtput]
      exact wellFormed_apply hplaced h hs t.answers

theorem wellFormed_replay (hplaced : model.Placed) (h : c.WellFormed model) (ts : List Turn) :
    (c.replay model ts).WellFormed model := by
  induction ts generalizing c with
  | nil => exact h
  | cons t ts ih => exact ih (wellFormed_after hplaced h t)

end After

/-! ## Lookups -/

/-- What the runner looks up in a model, starting from its steps, flows and use cases and from
names, is there. -/
structure Model.InRange (model : Model C) : Prop where
  step : ∀ s ∈ model.steps, model.step? s.id = some s
  flow_of_step : ∀ s ∈ model.steps, ∃ f, model.flow? s.flow = some f
  useCase_of_step : ∀ s ∈ model.steps, ∃ u, model.useCase? s.useCase = some u
  previous_of_step : ∀ s ∈ model.steps, ∀ p, s.previous = some p → ∃ q, model.step? p = some q
  useCase_of_flow : ∀ f ∈ model.flows, ∃ u, model.useCase? f.useCase = some u
  steps_of_flow : ∀ f ∈ model.flows, ∀ p ∈ f.steps, ∃ s, model.step? p = some s
  flows_of_useCase : ∀ u ∈ model.useCases, ∀ p ∈ u.flows, ∃ f, model.flow? p = some f
  preceding : ∀ f p, model.precedingFlow? f = some p → ∃ g, model.flow? p = some g
  resolved : ∀ name s, model.resolve name = .ok s → model.step? s.id = some s
  useCase_named : ∀ name u, model.useCaseNamed? name = some u → model.useCase? u.id = some u

/-- What the runner looks up from a cursor is there. -/
structure Cursor.InRange (model : Model C) (c : Cursor) : Prop where
  latest : ∀ id, c.latest = some id → ∃ s ∈ model.steps, model.step? id = some s
  continueAt : ∀ id, c.continueAt = some id → ∃ s ∈ model.steps, model.step? id = some s
  includeStep : ∀ f ∈ c.frames, ∃ s ∈ model.steps, model.step? f.includeStep = some s
  included : ∀ f ∈ c.frames, ∃ u ∈ model.useCases, model.useCase? f.included = some u

section Lookups

variable {model : Model C} (hplaced : model.Placed)
include hplaced

theorem model_inRange : model.InRange where
  step s hs := hplaced.step?_self hs
  flow_of_step s hs := by
    obtain ⟨f, hf, -⟩ := hplaced.flow?_of_step hs
    exact ⟨f, hf⟩
  useCase_of_step s hs := by
    obtain ⟨f, hf, huse, -⟩ := hplaced.flow?_of_step hs
    obtain ⟨u, hu, -⟩ := hplaced.useCase?_of_flow (Model.mem_flows_of_flow? hf)
    exact ⟨u, huse ▸ hu⟩
  previous_of_step s hs p hp := by
    obtain ⟨q, hq, -⟩ := hplaced.step?_of_previous hs hp
    exact ⟨q, hq⟩
  useCase_of_flow f hf := by
    obtain ⟨u, hu, -⟩ := hplaced.useCase?_of_flow hf
    exact ⟨u, hu⟩
  steps_of_flow f hf p hp := by
    obtain ⟨s, hs, -⟩ := hplaced.step?_of_mem_flow hf hp
    exact ⟨s, hs⟩
  flows_of_useCase u hu p hp := by
    obtain ⟨f, hf, rfl, -⟩ := hplaced.flows_of_useCase u hu p hp
    exact ⟨f, hplaced.flow?_self hf⟩
  preceding f p hp := by
    unfold Model.precedingFlow? at hp
    split at hp
    · rename_i u hu
      split at hp
      · have hmem := Model.mem_useCases_of_useCase? hu
        obtain ⟨g, hg, rfl, -⟩ := hplaced.flows_of_useCase u hmem p (List.mem_of_getElem? hp)
        exact ⟨g, hplaced.flow?_self hg⟩
      · cases hp
    · cases hp
  resolved name s h := hplaced.step?_self (Model.mem_steps_of_stepNamed? (stepNamed?_of_resolve h))
  useCase_named name u h := hplaced.useCase?_self (Model.mem_useCases_of_useCaseNamed? h)

/-- **No lookup from a well-formed cursor is out of range.** -/
theorem cursor_inRange {c : Cursor} (h : c.WellFormed model) : c.InRange model where
  latest id hid := by
    obtain ⟨s, hs⟩ := h.latest id hid
    exact ⟨s, Model.mem_steps_of_step? hs, hs⟩
  continueAt id hid := by
    obtain ⟨s, -, -, -, hs, -⟩ := h.continueAt id hid
    exact ⟨s, Model.mem_steps_of_step? hs, hs⟩
  includeStep f hf := by
    obtain ⟨s, hs⟩ := h.step?_of_frame hf
    exact ⟨s, Model.mem_steps_of_step? hs, hs⟩
  included f hf := by
    obtain ⟨_, _, u, -, -, hu, hid⟩ := h.frames f hf
    have hmem := Model.mem_useCases_of_useCaseNamed? hu
    exact ⟨u, hmem, hid ▸ hplaced.useCase?_self hmem⟩

end Lookups

/-! ## Every moment of every run -/

section Reachable

variable {S : Signature} {app : Application S}

theorem wellFormed_cursorAt (hbuilt : app.Built) (r : RunnerId S) {journal : List (Event S)}
    {name : S.ModelName} (hname : ranModel? r journal = some name) :
    (cursorAt app r journal).WellFormed (app.model name) := by
  unfold cursorAt
  rw [hname]
  exact wellFormed_replay (placed_of_build (hbuilt name)) wellFormed_empty _

theorem Faithful.resolved {r : RunnerId S} {step : StepId} {scope : Scope} {c : Cursor}
    {actor : String} {state : S.State} {earlier journal : List (Event S)}
    (h : Faithful app r journal)
    (hsuffix : .resolved r step scope c actor state :: earlier <:+ journal) :
    c = cursorAt app r earlier :=
  (h.of_suffix app r hsuffix).2.1 c (by simp [Event.resolvedAt?])

/-- **Cursors are well formed in every world that can be reached**, and were at every moment before,
for the model that the runner was put at the start of last; before that the cursor is empty. Steps
are resolved at these cursors only, and whatever is looked up from them or in the model is there. -/
theorem wellFormed_of_reachable (hbuilt : app.Built) {w : World S} (h : Reachable app w)
    (r : RunnerId S) :
    ((w.runner r).model = none → (w.runner r).cursor = {}) ∧
    (∀ name, (w.runner r).model = some name →
      (w.runner r).cursor.WellFormed (app.model name)) ∧
    (w.runner r).cursor = cursorAt app r w.journal ∧
    (∀ earlier name, earlier <:+ w.journal → ranModel? r earlier = some name →
      (cursorAt app r earlier).WellFormed (app.model name) ∧
        (cursorAt app r earlier).InRange (app.model name) ∧ (app.model name).InRange) ∧
    ∀ step scope c actor state earlier,
      .resolved r step scope c actor state :: earlier <:+ w.journal →
        c = cursorAt app r earlier := by
  obtain ⟨-, hrecounted⟩ := recounted_of_reachable hbuilt h r
  refine ⟨fun hname => ?_, fun name hname => ?_, hrecounted.cursor, fun earlier name _ hname => ?_,
    fun step scope c actor state earlier hsuffix => hrecounted.faithful.resolved hsuffix⟩
  · rw [hrecounted.cursor]
    rw [hrecounted.model] at hname
    unfold cursorAt
    rw [hname]
  · rw [hrecounted.cursor]
    rw [hrecounted.model] at hname
    exact wellFormed_cursorAt hbuilt r hname
  · have hplaced := placed_of_build (hbuilt name)
    have hwell := wellFormed_cursorAt hbuilt r hname
    exact ⟨hwell, cursor_inRange hplaced hwell, model_inRange hplaced⟩

/-- Inside of the detour, the frame of the detour is well formed. -/
theorem wellFormed_on_detour :
    ((Detour.after [.run (), .react Detour.drive]).runner Detour.driver).cursor =
        { latest := some ⟨0⟩, frames := [⟨⟨0⟩, ⟨1⟩⟩] } ∧
      ((Detour.after [.run (), .react Detour.drive]).runner Detour.driver).cursor.WellFormed
        (Detour.application.model ()) := by
  refine ⟨by decide +kernel, ?_⟩
  have h := wellFormed_of_reachable Detour.built
    (Detour.reachable_after [.run (), .react Detour.drive]) Detour.driver
  exact h.2.1 () (by decide +kernel)

end Reachable

end UseCaseEngine
