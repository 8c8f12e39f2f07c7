import UseCaseEngine.Model.Build

/-!
# Places in built models

`ModelSpec.build` gives steps, flows and use cases the places that they have in the model's lists,
and links them by these places. `Model.Placed` says what the runner relies on when it follows a
link: a place is the place of the item found there, and every link leads to an item that links back.

* `placed_of_build`: every model that is built is placed.
* `Model.Built.previous`: a step that follows another one stands in the same flow, which the other
  one does not end.
* `Model.Placed.step?_self`, `flow?_self`, `useCase?_self`: an item is found at its own place.
* `Model.Placed.step_inj`, `flow_inj`, `useCase_inj`: so there is one item at a place.
-/

namespace UseCaseEngine

variable {C : Code}

/-- The items of a model are at their places, and the links between them lead somewhere. -/
structure Model.Placed (model : Model C) : Prop where
  step_id : ∀ {id s}, model.step? id = some s → s.id = id
  flow_id : ∀ {id f}, model.flow? id = some f → f.id = id
  useCase_id : ∀ {id u}, model.useCase? id = some u → u.id = id
  flow_of_step : ∀ s ∈ model.steps, ∃ f ∈ model.flows, s.flow = f.id ∧ s.useCase = f.useCase ∧
    s.id ∈ f.steps ∧ (s.previous = none ↔ f.steps.head? = some s.id)
  useCase_of_flow : ∀ f ∈ model.flows, ∃ u ∈ model.useCases, f.useCase = u.id ∧ f.id ∈ u.flows
  steps_of_flow : ∀ f ∈ model.flows, ∀ p ∈ f.steps, ∃ s ∈ model.steps, s.id = p ∧ s.flow = f.id
  flows_of_useCase : ∀ u ∈ model.useCases, ∀ p ∈ u.flows,
    ∃ f ∈ model.flows, f.id = p ∧ f.useCase = u.id
  previous_of_step : ∀ s ∈ model.steps, ∀ p, s.previous = some p →
    ∃ q ∈ model.steps, q.id = p ∧ q.flow = s.flow

/-- A model that some specification is built into. -/
def Model.Built (model : Model C) : Prop := ∃ spec : ModelSpec C, spec.build = .ok model

/-! ## Items and their places -/

namespace Model

variable {model : Model C}

theorem mem_steps_of_step? {p : StepId} {s : Step C} (h : model.step? p = some s) :
    s ∈ model.steps :=
  List.mem_of_getElem? h

theorem mem_flows_of_flow? {p : FlowId} {f : Flow C} (h : model.flow? p = some f) :
    f ∈ model.flows :=
  List.mem_of_getElem? h

theorem mem_useCases_of_useCase? {p : UseCaseId} {u : UseCase} (h : model.useCase? p = some u) :
    u ∈ model.useCases :=
  List.mem_of_getElem? h

theorem mem_steps_of_stepNamed? {name : String} {s : Step C}
    (h : model.stepNamed? name = some s) : s ∈ model.steps :=
  List.mem_of_find?_eq_some h

theorem mem_useCases_of_useCaseNamed? {name : String} {u : UseCase}
    (h : model.useCaseNamed? name = some u) : u ∈ model.useCases :=
  List.mem_of_find?_eq_some h

theorem name_of_stepNamed? {name : String} {s : Step C} (h : model.stepNamed? name = some s) :
    s.name = name := by
  have hfound := List.find?_some h
  exact beq_iff_eq.mp hfound

theorem name_of_useCaseNamed? {name : String} {u : UseCase}
    (h : model.useCaseNamed? name = some u) : u.name = name := by
  have hfound := List.find?_some h
  exact beq_iff_eq.mp hfound

namespace Placed

variable (h : model.Placed)
include h

theorem step?_self {s : Step C} (hs : s ∈ model.steps) : model.step? s.id = some s := by
  obtain ⟨i, hi⟩ := List.mem_iff_getElem?.mp hs
  have hi : model.step? ⟨i⟩ = some s := hi
  have hid : s.id = ⟨i⟩ := h.step_id hi
  rw [hid]
  exact hi

theorem flow?_self {f : Flow C} (hf : f ∈ model.flows) : model.flow? f.id = some f := by
  obtain ⟨i, hi⟩ := List.mem_iff_getElem?.mp hf
  have hi : model.flow? ⟨i⟩ = some f := hi
  have hid : f.id = ⟨i⟩ := h.flow_id hi
  rw [hid]
  exact hi

theorem useCase?_self {u : UseCase} (hu : u ∈ model.useCases) : model.useCase? u.id = some u := by
  obtain ⟨i, hi⟩ := List.mem_iff_getElem?.mp hu
  have hi : model.useCase? ⟨i⟩ = some u := hi
  have hid : u.id = ⟨i⟩ := h.useCase_id hi
  rw [hid]
  exact hi

/-- Items at one place are one item. -/
theorem step_inj {s t : Step C} (hs : s ∈ model.steps) (ht : t ∈ model.steps)
    (hid : s.id = t.id) : s = t := by
  have hsame := h.step?_self hs
  rw [hid, h.step?_self ht] at hsame
  exact (Option.some.inj hsame).symm

theorem flow_inj {f g : Flow C} (hf : f ∈ model.flows) (hg : g ∈ model.flows)
    (hid : f.id = g.id) : f = g := by
  have hsame := h.flow?_self hf
  rw [hid, h.flow?_self hg] at hsame
  exact (Option.some.inj hsame).symm

theorem useCase_inj {u v : UseCase} (hu : u ∈ model.useCases) (hv : v ∈ model.useCases)
    (hid : u.id = v.id) : u = v := by
  have hsame := h.useCase?_self hu
  rw [hid, h.useCase?_self hv] at hsame
  exact (Option.some.inj hsame).symm

theorem flow?_of_step {s : Step C} (hs : s ∈ model.steps) :
    ∃ f, model.flow? s.flow = some f ∧ s.useCase = f.useCase ∧ s.id ∈ f.steps ∧
      (s.previous = none ↔ f.steps.head? = some s.id) := by
  obtain ⟨f, hf, hflow, huse, hmem, hentry⟩ := h.flow_of_step s hs
  exact ⟨f, by rw [hflow]; exact h.flow?_self hf, huse, hmem, hentry⟩

theorem useCase?_of_flow {f : Flow C} (hf : f ∈ model.flows) :
    ∃ u, model.useCase? f.useCase = some u ∧ f.id ∈ u.flows := by
  obtain ⟨u, hu, huse, hmem⟩ := h.useCase_of_flow f hf
  exact ⟨u, by rw [huse]; exact h.useCase?_self hu, hmem⟩

theorem step?_of_mem_flow {f : Flow C} (hf : f ∈ model.flows) {p : StepId} (hp : p ∈ f.steps) :
    ∃ s, model.step? p = some s ∧ s.flow = f.id := by
  obtain ⟨s, hs, hid, hflow⟩ := h.steps_of_flow f hf p hp
  exact ⟨s, by rw [← hid]; exact h.step?_self hs, hflow⟩

theorem step?_of_previous {s : Step C} (hs : s ∈ model.steps) {p : StepId}
    (hp : s.previous = some p) : ∃ q, model.step? p = some q ∧ q.flow = s.flow := by
  obtain ⟨q, hq, hid, hflow⟩ := h.previous_of_step s hs p hp
  exact ⟨q, by rw [← hid]; exact h.step?_self hq, hflow⟩

end Placed

end Model

/-! ## Consecutive places -/

namespace ModelSpec

/-- The step that is declared `i`-th gets the `i`-th place from the given one on, and the step
before it, if there is one, as its predecessor. -/
theorem getElem?_placeSteps (useCase : UseCaseId) (flow : FlowId) (previous : Option StepId)
    (next : Nat) (specs : List (StepSpec C)) (i : Nat) :
    (placeSteps useCase flow previous next specs)[i]? = specs[i]?.map fun s =>
      s.place ⟨next + i⟩ useCase flow (if i = 0 then previous else some ⟨next + (i - 1)⟩) := by
  induction specs generalizing previous next i with
  | nil => simp [placeSteps]
  | cons s rest ih =>
    cases i with
    | zero => simp [placeSteps]
    | succ i =>
      rw [placeSteps, List.getElem?_cons_succ, List.getElem?_cons_succ, ih]
      congr 1
      funext t
      have hplace : next + 1 + i = next + (i + 1) := by omega
      rcases Nat.eq_zero_or_pos i with rfl | hi
      · simp
      · have hprev : next + 1 + (i - 1) = next + i := by omega
        simp [hplace, hprev, Nat.ne_of_gt hi]

theorem length_placeSteps (useCase : UseCaseId) (flow : FlowId) (previous : Option StepId)
    (next : Nat) (specs : List (StepSpec C)) :
    (placeSteps useCase flow previous next specs).length = specs.length := by
  induction specs generalizing previous next with
  | nil => rfl
  | cons s rest ih => simp [placeSteps, ih]

theorem ids_placeSteps (useCase : UseCaseId) (flow : FlowId) (previous : Option StepId)
    (next : Nat) (specs : List (StepSpec C)) :
    (placeSteps useCase flow previous next specs).map (·.id) =
      (List.range' next specs.length).map StepId.mk := by
  induction specs generalizing previous next with
  | nil => rfl
  | cons s rest ih =>
    rw [placeSteps, List.map_cons, ih, List.length_cons, List.range'_succ, List.map_cons]
    rfl

theorem step_ids_placeFlows (useCase : UseCaseId) (nextFlow nextStep : Nat)
    (specs : List (FlowSpec C)) :
    ((placeFlows useCase nextFlow nextStep specs).flatMap (·.2)).map (·.id) =
      (List.range' nextStep
        ((placeFlows useCase nextFlow nextStep specs).flatMap (·.2)).length).map StepId.mk := by
  induction specs generalizing nextFlow nextStep with
  | nil => rfl
  | cons f rest ih =>
    simp only [placeFlows, List.flatMap_cons, List.map_append, List.length_append,
      length_placeSteps]
    rw [ids_placeSteps, ih, ← List.range'_append_1, List.map_append]

theorem flow_ids_placeFlows (useCase : UseCaseId) (nextFlow nextStep : Nat)
    (specs : List (FlowSpec C)) :
    ((placeFlows useCase nextFlow nextStep specs).map (·.1)).map (·.id) =
      (List.range' nextFlow
        ((placeFlows useCase nextFlow nextStep specs).map (·.1)).length).map FlowId.mk := by
  induction specs generalizing nextFlow nextStep with
  | nil => rfl
  | cons f rest ih =>
    rw [placeFlows, List.map_cons, List.map_cons, ih, List.length_cons, List.range'_succ,
      List.map_cons]

theorem step_ids_placeUseCases (next nextFlow nextStep : Nat) (specs : List (UseCaseSpec C)) :
    ((placeUseCases next nextFlow nextStep specs).flatMap (·.2.2)).map (·.id) =
      (List.range' nextStep
        ((placeUseCases next nextFlow nextStep specs).flatMap (·.2.2)).length).map StepId.mk := by
  induction specs generalizing next nextFlow nextStep with
  | nil => rfl
  | cons u rest ih =>
    simp only [placeUseCases, List.flatMap_cons, List.map_append, List.length_append]
    rw [step_ids_placeFlows, ih, ← List.range'_append_1, List.map_append]

theorem flow_ids_placeUseCases (next nextFlow nextStep : Nat) (specs : List (UseCaseSpec C)) :
    ((placeUseCases next nextFlow nextStep specs).flatMap (·.2.1)).map (·.id) =
      (List.range' nextFlow
        ((placeUseCases next nextFlow nextStep specs).flatMap (·.2.1)).length).map FlowId.mk := by
  induction specs generalizing next nextFlow nextStep with
  | nil => rfl
  | cons u rest ih =>
    simp only [placeUseCases, List.flatMap_cons, List.map_append, List.length_append]
    rw [flow_ids_placeFlows, ih, ← List.range'_append_1, List.map_append]

theorem useCase_ids_placeUseCases (next nextFlow nextStep : Nat)
    (specs : List (UseCaseSpec C)) :
    ((placeUseCases next nextFlow nextStep specs).map (·.1)).map (·.id) =
      (List.range' next
        ((placeUseCases next nextFlow nextStep specs).map (·.1)).length).map UseCaseId.mk := by
  induction specs generalizing next nextFlow nextStep with
  | nil => rfl
  | cons u rest ih =>
    rw [placeUseCases, List.map_cons, List.map_cons, ih, List.length_cons, List.range'_succ,
      List.map_cons]

/-- In a list whose places are consecutive from zero on, an item is at its own place. -/
theorem place_of_getElem? {α β : Type} {items : List α} {place : α → β} (mk : Nat → β)
    (h : items.map place = (List.range' 0 items.length).map mk) {i : Nat} {a : α}
    (ha : items[i]? = some a) : place a = mk i := by
  have hi : i < items.length := (List.getElem?_eq_some_iff.mp ha).1
  have hmap : (items.map place)[i]? = some (place a) := by rw [List.getElem?_map, ha]; rfl
  rw [h, List.getElem?_map, List.getElem?_range' hi] at hmap
  simpa using hmap.symm

/-! ## Links -/

/-- What is said of a step: its flow, its use case, and whether it is the first of its flow. -/
theorem mem_placeSteps {useCase : UseCaseId} {flow : FlowId} {next : Nat}
    {specs : List (StepSpec C)} {s : Step C}
    (h : s ∈ placeSteps useCase flow none next specs) :
    s.useCase = useCase ∧ s.flow = flow ∧
      (s.previous = none ↔
        ((placeSteps useCase flow none next specs).map (·.id)).head? = some s.id) ∧
      ∀ p, s.previous = some p → ∃ q ∈ placeSteps useCase flow none next specs, q.id = p := by
  obtain ⟨i, hi⟩ := List.mem_iff_getElem?.mp h
  have hlt : i < specs.length := by
    have := (List.getElem?_eq_some_iff.mp hi).1
    rwa [length_placeSteps] at this
  have hs := hi
  rw [getElem?_placeSteps, List.getElem?_eq_getElem hlt] at hs
  obtain rfl := Option.some.inj hs
  refine ⟨rfl, rfl, ?_, ?_⟩
  · rw [ids_placeSteps]
    cases i with
    | zero =>
      obtain ⟨n, hn⟩ : ∃ n, specs.length = n + 1 := ⟨specs.length - 1, by omega⟩
      simp [StepSpec.place, hn, List.range'_succ]
    | succ i =>
      obtain ⟨n, hn⟩ : ∃ n, specs.length = n + 1 := ⟨specs.length - 1, by omega⟩
      simp [StepSpec.place, hn, List.range'_succ]
  · intro p hp
    cases i with
    | zero => simp [StepSpec.place] at hp
    | succ i =>
      have hlt' : i < specs.length := by omega
      refine ⟨specs[i].place ⟨next + i⟩ useCase flow
        (if i = 0 then none else some ⟨next + (i - 1)⟩),
        List.mem_of_getElem? (i := i) ?_, ?_⟩
      · rw [getElem?_placeSteps, List.getElem?_eq_getElem hlt']
        rfl
      · simpa [StepSpec.place] using hp

/-- A step that follows another one is placed right behind it, so that the other one does not end
the flow. -/
theorem successor_placeSteps {useCase : UseCaseId} {flow : FlowId} {next : Nat}
    {specs : List (StepSpec C)} {s : Step C} {p : StepId}
    (h : s ∈ placeSteps useCase flow none next specs) (hp : s.previous = some p) :
    s.id = ⟨p.index + 1⟩ ∧
      ((placeSteps useCase flow none next specs).map (·.id)).getLast? ≠ some p := by
  obtain ⟨i, hi⟩ := List.mem_iff_getElem?.mp h
  have hlt : i < specs.length := by
    have := (List.getElem?_eq_some_iff.mp hi).1
    rwa [length_placeSteps] at this
  rw [getElem?_placeSteps, List.getElem?_eq_getElem hlt] at hi
  obtain rfl := Option.some.inj hi
  cases i with
  | zero => simp [StepSpec.place] at hp
  | succ i =>
    obtain rfl : ⟨next + i⟩ = p := by simpa [StepSpec.place] using hp
    refine ⟨rfl, ?_⟩
    rw [ids_placeSteps, List.getLast?_map, List.getLast?_range', if_neg (by omega)]
    intro hlast
    have hplace : next + specs.length - 1 = next + i :=
      congrArg StepId.index (Option.some.inj hlast)
    omega

theorem mem_placeFlows {useCase : UseCaseId} {nextFlow nextStep : Nat}
    {specs : List (FlowSpec C)} {f : Flow C} {steps : List (Step C)}
    (h : (f, steps) ∈ placeFlows useCase nextFlow nextStep specs) :
    f.useCase = useCase ∧ f.steps = steps.map (·.id) ∧
      ∃ next spec, steps = placeSteps useCase f.id none next spec := by
  induction specs generalizing nextFlow nextStep with
  | nil => simp [placeFlows] at h
  | cons spec rest ih =>
    rw [placeFlows, List.mem_cons, Prod.mk.injEq] at h
    rcases h with ⟨rfl, rfl⟩ | h
    · exact ⟨rfl, rfl, nextStep, spec.steps, rfl⟩
    · exact ih h

theorem mem_placeUseCases {next nextFlow nextStep : Nat} {specs : List (UseCaseSpec C)}
    {u : UseCase} {flows : List (Flow C)} {steps : List (Step C)}
    (h : (u, flows, steps) ∈ placeUseCases next nextFlow nextStep specs) :
    ∃ nextFlow nextStep spec, flows = (placeFlows u.id nextFlow nextStep spec).map (·.1) ∧
      steps = (placeFlows u.id nextFlow nextStep spec).flatMap (·.2) ∧
      u.flows = flows.map (·.id) ∧ u.steps = steps.map (·.id) := by
  induction specs generalizing next nextFlow nextStep with
  | nil => simp [placeUseCases] at h
  | cons spec rest ih =>
    simp only [placeUseCases, List.mem_cons, Prod.mk.injEq] at h
    rcases h with ⟨rfl, rfl, rfl⟩ | h
    · exact ⟨nextFlow, nextStep, spec.flows, rfl, rfl, rfl, rfl⟩
    · exact ih h

section Assemble

variable (spec : ModelSpec C)

/-- A flow of the assembled model comes with its use case and with its steps. -/
theorem mem_flows_assemble {f : Flow C} (h : f ∈ spec.assemble.flows) :
    ∃ u ∈ spec.assemble.useCases, f.useCase = u.id ∧ f.id ∈ u.flows ∧
      ∃ steps, f.steps = steps.map (·.id) ∧ steps ⊆ spec.assemble.steps ∧
        ∃ next specs, steps = placeSteps u.id f.id none next specs := by
  obtain ⟨⟨u, flows, steps⟩, hmem, hf⟩ := List.mem_flatMap.mp h
  obtain ⟨nextFlow, nextStep, specs, rfl, rfl, hflows, -⟩ := mem_placeUseCases hmem
  obtain ⟨⟨f, own⟩, hown, rfl⟩ := List.mem_map.mp hf
  obtain ⟨huse, hsteps, next, spec', hplaced⟩ := mem_placeFlows hown
  refine ⟨u, List.mem_map.mpr ⟨_, hmem, rfl⟩, huse, ?_, own, hsteps, ?_, next, spec', hplaced⟩
  · rw [hflows]
    exact List.mem_map.mpr ⟨f, hf, rfl⟩
  · intro s hs
    exact List.mem_flatMap.mpr ⟨_, hmem, List.mem_flatMap.mpr ⟨_, hown, hs⟩⟩

/-- A step of the assembled model is one of the steps of one of its flows. -/
theorem mem_steps_assemble {s : Step C} (h : s ∈ spec.assemble.steps) :
    ∃ f ∈ spec.assemble.flows, ∃ steps, s ∈ steps ∧ f.steps = steps.map (·.id) ∧
      steps ⊆ spec.assemble.steps ∧
        ∃ next specs, steps = placeSteps f.useCase f.id none next specs := by
  obtain ⟨⟨u, flows, steps⟩, hmem, hs⟩ := List.mem_flatMap.mp h
  obtain ⟨nextFlow, nextStep, specs, rfl, rfl, hflows, -⟩ := mem_placeUseCases hmem
  obtain ⟨⟨f, own⟩, hown, hs⟩ := List.mem_flatMap.mp hs
  obtain ⟨huse, hsteps, next, spec', hplaced⟩ := mem_placeFlows hown
  refine ⟨f, List.mem_flatMap.mpr ⟨_, hmem, List.mem_map.mpr ⟨_, hown, rfl⟩⟩, own, hs, hsteps, ?_,
    next, spec', by rw [huse]; exact hplaced⟩
  intro t ht
  exact List.mem_flatMap.mpr ⟨_, hmem, List.mem_flatMap.mpr ⟨_, hown, ht⟩⟩

/-- A step of the assembled model that follows another one comes right after it, in a flow that the
other one does not end. -/
theorem successor_assemble {s : Step C} (h : s ∈ spec.assemble.steps) {p : StepId}
    (hp : s.previous = some p) :
    s.id = ⟨p.index + 1⟩ ∧
      ∃ f ∈ spec.assemble.flows, s.flow = f.id ∧ f.steps.getLast? ≠ some p := by
  obtain ⟨f, hf, steps, hmem, hsteps, -, next, specs, rfl⟩ := spec.mem_steps_assemble h
  obtain ⟨hid, hlast⟩ := successor_placeSteps hmem hp
  exact ⟨hid, f, hf, (mem_placeSteps hmem).2.1, hsteps ▸ hlast⟩

/-- A flow that a use case of the assembled model lists is one of its flows. -/
theorem mem_useCases_assemble {u : UseCase} (h : u ∈ spec.assemble.useCases) {p : FlowId}
    (hp : p ∈ u.flows) : ∃ f ∈ spec.assemble.flows, f.id = p ∧ f.useCase = u.id := by
  obtain ⟨⟨u, flows, steps⟩, hmem, rfl⟩ := List.mem_map.mp h
  obtain ⟨nextFlow, nextStep, specs, rfl, rfl, hflows, -⟩ := mem_placeUseCases hmem
  rw [hflows] at hp
  obtain ⟨f, hf, rfl⟩ := List.mem_map.mp hp
  obtain ⟨⟨f, own⟩, hown, rfl⟩ := List.mem_map.mp hf
  exact ⟨f, List.mem_flatMap.mpr ⟨_, hmem, hf⟩, rfl, (mem_placeFlows hown).1⟩

theorem placed_assemble : spec.assemble.Placed where
  step_id h := place_of_getElem? StepId.mk (step_ids_placeUseCases 0 0 0 spec.useCases) h
  flow_id h := place_of_getElem? FlowId.mk (flow_ids_placeUseCases 0 0 0 spec.useCases) h
  useCase_id h :=
    place_of_getElem? UseCaseId.mk (useCase_ids_placeUseCases 0 0 0 spec.useCases) h
  flow_of_step s hs := by
    obtain ⟨f, hf, steps, hmem, hsteps, -, next, specs, rfl⟩ := spec.mem_steps_assemble hs
    obtain ⟨huse, hflow, hentry, -⟩ := mem_placeSteps hmem
    refine ⟨f, hf, hflow, huse, ?_, ?_⟩
    · rw [hsteps]
      exact List.mem_map.mpr ⟨s, hmem, rfl⟩
    · rw [hsteps]
      exact hentry
  useCase_of_flow f hf := by
    obtain ⟨u, hu, huse, hmem, -⟩ := spec.mem_flows_assemble hf
    exact ⟨u, hu, huse, hmem⟩
  steps_of_flow f hf p hp := by
    obtain ⟨u, -, -, -, steps, hsteps, hsub, next, specs, rfl⟩ := spec.mem_flows_assemble hf
    rw [hsteps] at hp
    obtain ⟨s, hs, rfl⟩ := List.mem_map.mp hp
    exact ⟨s, hsub hs, rfl, (mem_placeSteps hs).2.1⟩
  flows_of_useCase u hu p hp := spec.mem_useCases_assemble hu hp
  previous_of_step s hs p hp := by
    obtain ⟨f, -, steps, hmem, -, hsub, next, specs, rfl⟩ := spec.mem_steps_assemble hs
    obtain ⟨-, hflow, -, hprev⟩ := mem_placeSteps hmem
    obtain ⟨q, hq, hid⟩ := hprev p hp
    exact ⟨q, hsub hq, hid, (mem_placeSteps hq).2.1.trans hflow.symm⟩

end Assemble

end ModelSpec

/-- **Built models are placed.** -/
theorem placed_of_build {model : Model C} (h : model.Built) : model.Placed := by
  obtain ⟨spec, hspec⟩ := h
  obtain ⟨-, rfl⟩ := (spec.build_eq_ok_iff model).mp hspec
  exact spec.placed_assemble

/-- **A step that follows another one** comes right after it, in the same flow and the same use
case, and the other one does not end the flow. -/
theorem Model.Built.previous {model : Model C} (h : model.Built) {s q : Step C}
    (hs : s ∈ model.steps) (hq : q ∈ model.steps) (hp : s.previous = some q.id) :
    s.id = ⟨q.id.index + 1⟩ ∧ s.flow = q.flow ∧ s.useCase = q.useCase ∧
      model.isLast q = false := by
  have hplaced := placed_of_build h
  obtain ⟨spec, hspec⟩ := h
  obtain ⟨-, rfl⟩ := (spec.build_eq_ok_iff model).mp hspec
  obtain ⟨hid, f, hf, hflow, hlast⟩ := spec.successor_assemble hs hp
  have hplace := hplaced.flow?_self hf
  have hsame : s.flow = q.flow := by
    obtain ⟨q', hq', hflow'⟩ := hplaced.step?_of_previous hs hp
    rw [hplaced.step?_self hq] at hq'
    rw [← hflow', Option.some.inj hq']
  have huseCase {t : Step C} (ht : t ∈ spec.assemble.steps) (htf : t.flow = f.id) :
      t.useCase = f.useCase := by
    obtain ⟨f', hf', huse, -⟩ := hplaced.flow?_of_step ht
    rw [htf, hplace] at hf'
    rw [huse, ← Option.some.inj hf']
  refine ⟨hid, hsame, ?_, ?_⟩
  · rw [huseCase hs hflow, huseCase hq (hsame ▸ hflow)]
  · unfold Model.isLast
    rw [← hsame, hflow, hplace]
    exact beq_eq_false_iff_ne.mpr hlast

end UseCaseEngine
