import Mathlib.Data.List.Nodup
import UseCaseEngine.Example.Shop
import UseCaseEngine.Proofs.Validity

/-!
# Built models are graphs

The lists and links of a built model fit together, and the specification can be read off them:
`Model.Graph` says so in four parts. Places are positions, and items are found by their declared
names (`Model.Named`); each step is in one flow and one use case, and the lists agree with the links
(`Model.Partitioned`); steps and flows are linked in the order in which they were declared
(`Model.Ordered`); and all actors that are referred to exist (`Model.Cast`).

Out of scope: names of steps and use cases in positions and reactions. These may refer to nothing,
and are looked up in a run.

* **`graph_of_build`**: every model that is built is such a graph of its specification.
-/

namespace UseCaseEngine

variable {C : Code}

/-! ## What can be read off a model -/

/-- A step as it was declared. -/
def Step.declared (s : Step C) : StepSpec C where
  name := s.name
  actors := s.actors
  type := s.type
  reaction := s.reaction
  guard := s.guard
  repeatWhile := s.repeatWhile
  publishTo := s.publishTo
  handlesFailure := s.handlesFailure

namespace Model

variable (model : Model C)

/-- The steps of a flow. -/
def stepsOf (f : Flow C) : List (Step C) := f.steps.filterMap model.step?

/-- The flows of a use case. -/
def flowsOf (u : UseCase) : List (Flow C) := u.flows.filterMap model.flow?

/-- A flow as it was declared. -/
def declaredFlow (f : Flow C) : FlowSpec C where
  name := f.name
  position := f.position
  guard := f.guard
  steps := (model.stepsOf f).map (·.declared)

/-- A use case as it was declared. -/
def declaredUseCase (u : UseCase) : UseCaseSpec C where
  name := u.name
  flows := (model.flowsOf u).map model.declaredFlow

/-! ## The parts of the graph -/

/-- Steps, flows and use cases are those of the specification, and have its names. -/
structure Named (spec : ModelSpec C) : Prop where
  name : model.name = spec.name
  useCases : model.useCases.map model.declaredUseCase = spec.useCases
  flows : model.flows.map model.declaredFlow = spec.flows
  steps : model.steps.map (·.declared) = spec.steps
  step_named : ∀ {i d}, spec.steps[i]? = some d →
    ∃ s, model.stepNamed? d.name = some s ∧ s.id = ⟨i⟩ ∧ s.declared = d
  step_unnamed : ∀ {name}, (∀ d ∈ spec.steps, d.name ≠ name) → model.stepNamed? name = none
  useCase_named : ∀ {i d}, spec.useCases[i]? = some d →
    ∃ u, model.useCaseNamed? d.name = some u ∧ u.id = ⟨i⟩ ∧ model.declaredUseCase u = d
  useCase_unnamed : ∀ {name}, (∀ d ∈ spec.useCases, d.name ≠ name) →
    model.useCaseNamed? name = none

/-- Every step is in one flow and in one use case, and the lists agree with the links. -/
structure Partitioned : Prop where
  /-- The flows' lists hold each step once. -/
  flows_steps : model.flows.flatMap (·.steps) = model.steps.map (·.id)
  /-- The use cases' lists hold each flow once. -/
  useCases_flows : model.useCases.flatMap (·.flows) = model.flows.map (·.id)
  useCase_steps : ∀ u ∈ model.useCases, u.steps = (model.flowsOf u).flatMap (·.steps)
  flow_of_step : ∀ s ∈ model.steps, ∃ f, model.flow? s.flow = some f ∧ s.useCase = f.useCase ∧
    ∀ g ∈ model.flows, s.id ∈ g.steps ↔ g = f
  useCase_of_step : ∀ s ∈ model.steps, ∃ u, model.useCase? s.useCase = some u ∧
    ∀ v ∈ model.useCases, s.id ∈ v.steps ↔ v = u
  useCase_of_flow : ∀ f ∈ model.flows, ∃ u, model.useCase? f.useCase = some u ∧
    ∀ v ∈ model.useCases, f.id ∈ v.flows ↔ v = u

/-- Steps and flows are linked in their order. -/
structure Ordered : Prop where
  nonempty : ∀ f ∈ model.flows, f.steps ≠ []
  previous : ∀ f ∈ model.flows, ∀ s ∈ model.steps, ∀ i, f.steps[i]? = some s.id →
    s.previous = if i = 0 then none else f.steps[i - 1]?
  first : ∀ f ∈ model.flows, ∀ s ∈ model.steps, s.flow = f.id →
    (s.previous = none ↔ f.steps.head? = some s.id)
  last : ∀ s ∈ model.steps,
    model.isLast s = true ↔ ∀ t ∈ model.steps, t.previous ≠ some s.id
  basic : ∀ f ∈ model.flows, model.isBasicFlow f = true ↔ model.precedingFlow? f = none
  preceding : ∀ u ∈ model.useCases, ∀ f ∈ model.flows, ∀ i, u.flows[i]? = some f.id →
    model.precedingFlow? f = if i = 0 then none else u.flows[i - 1]?
  included : ∀ u ∈ model.useCases,
    model.isIncluded u.id = true ↔ ∃ s ∈ model.steps, s.reaction = .includeUseCase u.name

/-- The actors that are always there exist once, and all those that are referred to exist. -/
structure Cast : Prop where
  implicit : ∀ name ∈ [Actor.user, Actor.system], (model.actors.map (·.name)).count name = 1
  bound : ∀ s ∈ model.steps, ∀ actor ∈ s.actors, ∃ a ∈ model.actors, a.name = actor
  publishes : ∀ s ∈ model.steps, ∀ actor ∈ s.publishTo, ∃ a ∈ model.actors, a.name = actor

/-- The model is a graph of what was specified. -/
structure Graph (spec : ModelSpec C) : Prop where
  placed : model.Placed
  named : model.Named spec
  partitioned : model.Partitioned
  ordered : model.Ordered
  cast : model.Cast

end Model

/-- Where names are distinct, an item is found by its name. -/
theorem find?_name {α : Type} {name : α → String} {items : List α}
    (h : (items.map name).Nodup) {a : α} (ha : a ∈ items) :
    items.find? (fun x => name x == name a) = some a := by
  induction items with
  | nil => cases ha
  | cons b rest ih =>
    rw [List.map_cons, List.nodup_cons] at h
    rcases List.mem_cons.mp ha with rfl | ha
    · exact List.find?_cons_of_pos (beq_self_eq_true _)
    · have hne : (name b == name a) = false := beq_eq_false_iff_ne.mpr fun hsame =>
        h.1 (hsame ▸ List.mem_map.mpr ⟨a, ha, rfl⟩)
      rw [List.find?_cons, hne]
      exact ih h.2 ha

namespace ModelSpec

/-! ## Reading off what was placed -/

theorem declared_placeSteps (useCase : UseCaseId) (flow : FlowId) (previous : Option StepId)
    (next : Nat) (specs : List (StepSpec C)) :
    (placeSteps useCase flow previous next specs).map (·.declared) = specs := by
  induction specs generalizing previous next with
  | nil => rfl
  | cons s rest ih => exact congrArg (s :: ·) (ih _ _)

section Read

variable {model : Model C} (h : model.Placed)
include h

theorem filterMap_step? {steps : List (Step C)} (hsteps : steps ⊆ model.steps) :
    (steps.map (·.id)).filterMap model.step? = steps := by
  rw [List.filterMap_map]
  exact (List.filterMap_congr fun s hs => h.step?_self (hsteps hs)).trans List.filterMap_some

theorem filterMap_flow? {flows : List (Flow C)} (hflows : flows ⊆ model.flows) :
    (flows.map (·.id)).filterMap model.flow? = flows := by
  rw [List.filterMap_map]
  exact (List.filterMap_congr fun f hf => h.flow?_self (hflows hf)).trans List.filterMap_some

theorem declared_placeFlows {useCase : UseCaseId} {nextFlow nextStep : Nat}
    {specs : List (FlowSpec C)}
    (hsteps : (placeFlows useCase nextFlow nextStep specs).flatMap (·.2) ⊆ model.steps) :
    ((placeFlows useCase nextFlow nextStep specs).map (·.1)).map model.declaredFlow = specs := by
  induction specs generalizing nextFlow nextStep with
  | nil => rfl
  | cons f rest ih =>
    simp only [placeFlows, List.flatMap_cons, List.append_subset] at hsteps
    rw [placeFlows, List.map_cons, List.map_cons, ih hsteps.2]
    refine congrArg (· :: rest) ?_
    unfold Model.declaredFlow Model.stepsOf
    rw [filterMap_step? h hsteps.1, declared_placeSteps]

theorem declared_placeUseCases {next nextFlow nextStep : Nat} {specs : List (UseCaseSpec C)}
    (hflows : (placeUseCases next nextFlow nextStep specs).flatMap (·.2.1) ⊆ model.flows)
    (hsteps : (placeUseCases next nextFlow nextStep specs).flatMap (·.2.2) ⊆ model.steps) :
    ((placeUseCases next nextFlow nextStep specs).map (·.1)).map model.declaredUseCase =
      specs := by
  induction specs generalizing next nextFlow nextStep with
  | nil => rfl
  | cons u rest ih =>
    simp only [placeUseCases, List.flatMap_cons, List.append_subset] at hflows hsteps
    rw [placeUseCases, List.map_cons, List.map_cons, ih hflows.2 hsteps.2]
    refine congrArg (· :: rest) ?_
    unfold Model.declaredUseCase Model.flowsOf
    rw [filterMap_flow? h hflows.1, declared_placeFlows h hsteps.1]

end Read

/-! ## Lists of lists -/

theorem steps_placeFlows (useCase : UseCaseId) (nextFlow nextStep : Nat)
    (specs : List (FlowSpec C)) :
    ((placeFlows useCase nextFlow nextStep specs).map (·.1)).flatMap (·.steps) =
      ((placeFlows useCase nextFlow nextStep specs).flatMap (·.2)).map (·.id) := by
  induction specs generalizing nextFlow nextStep with
  | nil => rfl
  | cons f rest ih =>
    rw [placeFlows, List.map_cons, List.flatMap_cons, ih, List.flatMap_cons, List.map_append]

theorem steps_placeUseCases (next nextFlow nextStep : Nat) (specs : List (UseCaseSpec C)) :
    ((placeUseCases next nextFlow nextStep specs).flatMap (·.2.1)).flatMap (·.steps) =
      ((placeUseCases next nextFlow nextStep specs).flatMap (·.2.2)).map (·.id) := by
  induction specs generalizing next nextFlow nextStep with
  | nil => rfl
  | cons u rest ih =>
    rw [placeUseCases, List.flatMap_cons, List.flatMap_append, ih, List.flatMap_cons,
      List.map_append, steps_placeFlows]

theorem flows_placeUseCases (next nextFlow nextStep : Nat) (specs : List (UseCaseSpec C)) :
    ((placeUseCases next nextFlow nextStep specs).map (·.1)).flatMap (·.flows) =
      ((placeUseCases next nextFlow nextStep specs).flatMap (·.2.1)).map (·.id) := by
  induction specs generalizing next nextFlow nextStep with
  | nil => rfl
  | cons u rest ih =>
    rw [placeUseCases, List.map_cons, List.flatMap_cons, ih, List.flatMap_cons, List.map_append]

/-! ## The parts of the graph -/

variable (spec : ModelSpec C)

theorem useCases_declared :
    spec.assemble.useCases.map spec.assemble.declaredUseCase = spec.useCases :=
  declared_placeUseCases spec.placed_assemble (fun _ h => h) (fun _ h => h)

theorem flows_steps_assemble :
    spec.assemble.flows.flatMap (·.steps) = spec.assemble.steps.map (·.id) :=
  steps_placeUseCases 0 0 0 spec.useCases

theorem useCases_flows_assemble :
    spec.assemble.useCases.flatMap (·.flows) = spec.assemble.flows.map (·.id) :=
  flows_placeUseCases 0 0 0 spec.useCases

theorem flows_declared : spec.assemble.flows.map spec.assemble.declaredFlow = spec.flows := by
  have hread : spec.assemble.flows = spec.assemble.useCases.flatMap spec.assemble.flowsOf := by
    have hall := filterMap_flow? spec.placed_assemble (List.Subset.refl spec.assemble.flows)
    rw [← useCases_flows_assemble, List.filterMap_flatMap] at hall
    exact hall.symm
  unfold flows flowsOf
  rw [← useCases_declared, List.flatMap_map, hread, List.map_flatMap]
  rfl

theorem steps_declared : spec.assemble.steps.map (·.declared) = spec.steps := by
  have hread : spec.assemble.steps = spec.assemble.flows.flatMap spec.assemble.stepsOf := by
    have hall := filterMap_step? spec.placed_assemble (List.Subset.refl spec.assemble.steps)
    rw [← flows_steps_assemble, List.filterMap_flatMap] at hall
    exact hall.symm
  unfold steps stepsOf
  rw [← flows_declared, List.flatMap_map, hread, List.map_flatMap]
  rfl

/-! ### Names -/

variable {spec}

theorem named_assemble (h : spec.Valid) : spec.assemble.Named spec where
  name := rfl
  useCases := spec.useCases_declared
  flows := spec.flows_declared
  steps := spec.steps_declared
  step_named {i d} hd := by
    rw [← spec.steps_declared, List.getElem?_map, Option.map_eq_some_iff] at hd
    obtain ⟨s, hs, rfl⟩ := hd
    refine ⟨s, ?_, spec.placed_assemble.step_id hs, rfl⟩
    have hnames : (spec.assemble.steps.map (·.name)).Nodup := by
      have hdistinct := h.stepNames
      rw [← spec.steps_declared, List.map_map] at hdistinct
      exact hdistinct
    exact find?_name hnames (List.mem_of_getElem? hs)
  step_unnamed {name} hname := by
    refine List.find?_eq_none.mpr fun s hs hsame => ?_
    have hdeclared : s.declared ∈ spec.steps :=
      spec.steps_declared ▸ List.mem_map.mpr ⟨s, hs, rfl⟩
    exact hname _ hdeclared (beq_iff_eq.mp hsame)
  useCase_named {i d} hd := by
    rw [← spec.useCases_declared, List.getElem?_map, Option.map_eq_some_iff] at hd
    obtain ⟨u, hu, rfl⟩ := hd
    refine ⟨u, ?_, spec.placed_assemble.useCase_id hu, rfl⟩
    have hnames : (spec.assemble.useCases.map (·.name)).Nodup := by
      have hdistinct := h.useCases
      rw [← spec.useCases_declared, List.map_map] at hdistinct
      exact hdistinct
    exact find?_name hnames (List.mem_of_getElem? hu)
  useCase_unnamed {name} hname := by
    refine List.find?_eq_none.mpr fun u hu hsame => ?_
    have hdeclared : spec.assemble.declaredUseCase u ∈ spec.useCases :=
      spec.useCases_declared ▸ List.mem_map.mpr ⟨u, hu, rfl⟩
    exact hname _ hdeclared (beq_iff_eq.mp hsame)

end ModelSpec

/-! ### Lists and links -/

namespace Model

variable {model : Model C}

namespace Placed

variable (h : model.Placed)
include h

/-- A flow lists a step just if the step says that it is in it. -/
theorem flow_of_listed {s : Step C} (hs : s ∈ model.steps) :
    ∃ f, model.flow? s.flow = some f ∧ s.useCase = f.useCase ∧
      ∀ g ∈ model.flows, s.id ∈ g.steps ↔ g = f := by
  obtain ⟨f, hf, huse, hmem, -⟩ := h.flow?_of_step hs
  refine ⟨f, hf, huse, fun g hg => ⟨fun hin => ?_, fun heq => heq ▸ hmem⟩⟩
  obtain ⟨t, ht, hid, hflow⟩ := h.steps_of_flow g hg s.id hin
  obtain rfl := h.step_inj ht hs hid
  rw [hflow, h.flow?_self hg] at hf
  exact Option.some.inj hf

theorem useCase_of_listed {f : Flow C} (hf : f ∈ model.flows) :
    ∃ u, model.useCase? f.useCase = some u ∧ ∀ v ∈ model.useCases, f.id ∈ v.flows ↔ v = u := by
  obtain ⟨u, hu, hmem⟩ := h.useCase?_of_flow hf
  refine ⟨u, hu, fun v hv => ⟨fun hin => ?_, fun heq => heq ▸ hmem⟩⟩
  obtain ⟨g, hg, hid, huse⟩ := h.flows_of_useCase v hv f.id hin
  obtain rfl := h.flow_inj hg hf hid
  rw [huse, h.useCase?_self hv] at hu
  exact Option.some.inj hu

theorem mem_flowsOf {f : Flow C} (hf : f ∈ model.flows) (u : UseCase) :
    f ∈ model.flowsOf u ↔ f.id ∈ u.flows := by
  unfold flowsOf
  rw [List.mem_filterMap]
  constructor
  · rintro ⟨p, hp, hflow⟩
    rwa [h.flow_id hflow]
  · exact fun hmem => ⟨f.id, hmem, h.flow?_self hf⟩

end Placed

end Model

namespace ModelSpec

variable (spec : ModelSpec C)

theorem partitioned_assemble : spec.assemble.Partitioned := by
  have hplaced := spec.placed_assemble
  have huseCase (u : UseCase) (hu : u ∈ spec.assemble.useCases) :
      u.steps = (spec.assemble.flowsOf u).flatMap (·.steps) := by
    obtain ⟨⟨u, flows, steps⟩, hmem, rfl⟩ := List.mem_map.mp hu
    obtain ⟨nextFlow, nextStep, specs, rfl, rfl, hflows, hsteps⟩ := mem_placeUseCases hmem
    have hsub : (placeFlows u.id nextFlow nextStep specs).map (·.1) ⊆ spec.assemble.flows :=
      fun f hf => List.mem_flatMap.mpr ⟨_, hmem, hf⟩
    unfold Model.flowsOf
    rw [hflows, filterMap_flow? hplaced hsub, steps_placeFlows]
    exact hsteps
  refine ⟨spec.flows_steps_assemble, spec.useCases_flows_assemble, huseCase,
    fun s hs => hplaced.flow_of_listed hs, fun s hs => ?_,
    fun f hf => hplaced.useCase_of_listed hf⟩
  obtain ⟨f, hflow, huse, hlisted⟩ := hplaced.flow_of_listed hs
  have hf := Model.mem_flows_of_flow? hflow
  obtain ⟨u, hu, honly⟩ := hplaced.useCase_of_listed hf
  refine ⟨u, huse ▸ hu, fun v hv => ?_⟩
  rw [huseCase v hv, List.mem_flatMap, ← honly v hv, ← hplaced.mem_flowsOf hf]
  constructor
  · rintro ⟨g, hg, hmem⟩
    have hgmem : g ∈ spec.assemble.flows := by
      obtain ⟨p, -, hp⟩ := List.mem_filterMap.mp hg
      exact Model.mem_flows_of_flow? hp
    rwa [← (hlisted g hgmem).mp hmem]
  · exact fun hmem => ⟨f, hmem, (hlisted f hf).mpr rfl⟩

/-! ### Order -/

theorem nodup_flow_ids : (spec.assemble.flows.map (·.id)).Nodup := by
  have hids : spec.assemble.flows.map (·.id) = _ := flow_ids_placeUseCases 0 0 0 spec.useCases
  rw [hids]
  exact List.Nodup.map (fun _ _ h => congrArg FlowId.index h) List.nodup_range'

theorem nodup_flows_of_useCase {u : UseCase} (hu : u ∈ spec.assemble.useCases) :
    u.flows.Nodup := by
  have hall := spec.nodup_flow_ids
  rw [← spec.useCases_flows_assemble] at hall
  exact (List.nodup_flatMap.mp hall).1 u hu

/-- The step before a step is the one before it in its flow. -/
theorem previous_assemble {f : Flow C} (hf : f ∈ spec.assemble.flows) {s : Step C}
    (hs : s ∈ spec.assemble.steps) {i : Nat} (hi : f.steps[i]? = some s.id) :
    s.previous = if i = 0 then none else f.steps[i - 1]? := by
  obtain ⟨u, -, -, -, steps, hsteps, hsub, next, specs, rfl⟩ := spec.mem_flows_assemble hf
  rw [hsteps, List.getElem?_map, Option.map_eq_some_iff] at hi
  obtain ⟨t, ht, hid⟩ := hi
  obtain rfl := spec.placed_assemble.step_inj (hsub (List.mem_of_getElem? ht)) hs hid
  have hlt : i < specs.length := by
    have hlength := (List.getElem?_eq_some_iff.mp ht).1
    rwa [length_placeSteps] at hlength
  rw [getElem?_placeSteps, List.getElem?_eq_getElem hlt] at ht
  obtain rfl := Option.some.inj ht
  cases i with
  | zero => rfl
  | succ i =>
    rw [hsteps, ids_placeSteps, List.getElem?_map, Nat.add_sub_cancel,
      List.getElem?_range' (by omega)]
    simp [StepSpec.place]

/-- A step that does not end its flow has one that follows it. -/
theorem exists_successor {s : Step C} (hs : s ∈ spec.assemble.steps)
    (hlast : spec.assemble.isLast s = false) :
    ∃ t ∈ spec.assemble.steps, t.previous = some s.id := by
  have hplaced := spec.placed_assemble
  obtain ⟨f, hflow, -, hmem, -⟩ := hplaced.flow?_of_step hs
  have hf := Model.mem_flows_of_flow? hflow
  obtain ⟨i, hi⟩ := List.mem_iff_getElem?.mp hmem
  have hlt := (List.getElem?_eq_some_iff.mp hi).1
  have hnext : i + 1 < f.steps.length := by
    by_contra hend
    unfold Model.isLast at hlast
    rw [hflow] at hlast
    have hi' : f.steps[f.steps.length - 1]? = some s.id := by
      rwa [show f.steps.length - 1 = i by omega]
    rw [← List.getLast?_eq_getElem?] at hi'
    simp [hi'] at hlast
  obtain ⟨t, hstep, -⟩ := hplaced.step?_of_mem_flow hf (List.getElem_mem hnext)
  have ht := Model.mem_steps_of_step? hstep
  have hat : f.steps[i + 1]? = some t.id := by
    rw [List.getElem?_eq_getElem hnext, hplaced.step_id hstep]
  exact ⟨t, ht, (spec.previous_assemble hf ht hat).trans hi⟩

/-- The flow before a flow is the one before it in its use case. -/
theorem preceding_assemble {u : UseCase} (hu : u ∈ spec.assemble.useCases) {f : Flow C}
    (hf : f ∈ spec.assemble.flows) {i : Nat} (hi : u.flows[i]? = some f.id) :
    spec.assemble.precedingFlow? f = if i = 0 then none else u.flows[i - 1]? := by
  obtain ⟨v, hv, honly⟩ := spec.placed_assemble.useCase_of_listed hf
  obtain rfl := (honly u hu).mp (List.mem_of_getElem? hi)
  obtain ⟨hlt, hget⟩ := List.getElem?_eq_some_iff.mp hi
  have hplace : u.flows.idxOf? f.id = some i := by
    refine List.idxOf?_eq_some_iff.mpr ⟨hlt, hget, fun j hj hsame => ?_⟩
    have hdistinct := (spec.nodup_flows_of_useCase hu).getElem_inj_iff.mp (hsame.trans hget.symm)
    omega
  unfold Model.precedingFlow?
  rw [hv]
  dsimp only
  rw [hplace]
  cases i with
  | zero => rfl
  | succ i => rfl

theorem basic_assemble {f : Flow C} (hf : f ∈ spec.assemble.flows) :
    spec.assemble.isBasicFlow f = true ↔ spec.assemble.precedingFlow? f = none := by
  obtain ⟨u, hu, honly⟩ := spec.placed_assemble.useCase_of_listed hf
  have humem := Model.mem_useCases_of_useCase? hu
  obtain ⟨i, hi⟩ := List.mem_iff_getElem?.mp ((honly u humem).mpr rfl)
  have hlt := (List.getElem?_eq_some_iff.mp hi).1
  rw [spec.preceding_assemble humem hf hi]
  unfold Model.isBasicFlow
  rw [hu]
  dsimp only
  rw [beq_iff_eq, List.head?_eq_getElem?, ← hi,
    List.getElem?_inj (by omega) (spec.nodup_flows_of_useCase humem)]
  cases i with
  | zero => simp
  | succ i => simp; omega

theorem included_assemble {u : UseCase} (hu : u ∈ spec.assemble.useCases) :
    spec.assemble.isIncluded u.id = true ↔
      ∃ s ∈ spec.assemble.steps, s.reaction = .includeUseCase u.name := by
  have hincludes (s : Step C) (name : String) :
      (s.includes? == some name) = true ↔ s.reaction = .includeUseCase name := by
    rw [beq_iff_eq]
    unfold Step.includes?
    cases s.reaction <;> simp
  have hincluded : spec.assemble.isIncluded u.id = true ↔
      ∃ v ∈ spec.assemble.useCases, (∃ s ∈ spec.assemble.steps,
        s.reaction = .includeUseCase v.name) ∧ v.id = u.id := by
    change List.contains ((spec.assemble.useCases.filter fun v =>
      spec.assemble.steps.any (·.includes? == some v.name)).map (·.id)) u.id = true ↔ _
    rw [List.contains_iff_mem, List.mem_map]
    simp only [List.mem_filter, List.any_eq_true, hincludes, and_assoc]
  rw [hincluded]
  constructor
  · rintro ⟨v, hv, hsome, hid⟩
    rwa [← spec.placed_assemble.useCase_inj hv hu hid]
  · exact fun hsome => ⟨u, hu, hsome, rfl⟩

variable {spec}

theorem nonempty_assemble (h : spec.Valid) {f : Flow C} (hf : f ∈ spec.assemble.flows) :
    f.steps ≠ [] := by
  have hdeclared : spec.assemble.declaredFlow f ∈ spec.flows :=
    spec.flows_declared ▸ List.mem_map.mpr ⟨f, hf, rfl⟩
  intro hempty
  refine h.nonempty _ hdeclared ?_
  unfold Model.declaredFlow Model.stepsOf
  rw [hempty]
  rfl

theorem ordered_assemble (h : spec.Valid) : spec.assemble.Ordered where
  nonempty _ hf := nonempty_assemble h hf
  previous _ hf _ hs _ hi := spec.previous_assemble hf hs hi
  first f hf s hs hflow := by
    obtain ⟨g, hg, -, -, hentry⟩ := spec.placed_assemble.flow?_of_step hs
    rw [hflow, spec.placed_assemble.flow?_self hf] at hg
    rwa [Option.some.inj hg]
  last s hs := by
    constructor
    · intro hlast t ht hprevious
      have hbuilt : spec.assemble.Built :=
        ⟨spec, (spec.build_eq_ok_iff _).mpr ⟨spec.check_eq_ok_iff.mpr h, rfl⟩⟩
      rw [(hbuilt.previous ht hs hprevious).2.2.2] at hlast
      cases hlast
    · intro hnone
      by_contra hlast
      obtain ⟨t, ht, hprevious⟩ := spec.exists_successor hs (Bool.eq_false_iff.mpr hlast)
      exact hnone t ht hprevious
  basic _ hf := spec.basic_assemble hf
  preceding _ hu _ hf _ hi := spec.preceding_assemble hu hf hi
  included _ hu := spec.included_assemble hu

/-! ### Actors -/

variable (spec) in
theorem actors_assemble : spec.assemble.actors.map (·.name) = spec.actors.map (·.name) ++
    [Actor.user, Actor.system].filter fun name => spec.actors.all (·.name != name) := by
  change spec.allActors.map (·.name) = _
  unfold allActors
  rw [List.map_append, List.map_map]
  exact congrArg _ (List.map_id _)

theorem mem_actors_assemble {name : String} (h : name ∈ spec.actorNames) :
    ∃ a ∈ spec.assemble.actors, a.name = name := by
  rw [← List.mem_map, spec.actors_assemble, List.mem_append]
  by_cases hdeclared : name ∈ spec.actors.map (·.name)
  · exact .inl hdeclared
  · refine .inr (List.mem_filter.mpr
      ⟨(List.mem_append.mp h).resolve_left hdeclared, List.all_eq_true.mpr fun a ha => ?_⟩)
    exact bne_iff_ne.mpr fun hsame => hdeclared (List.mem_map.mpr ⟨a, ha, hsame⟩)

theorem nodup_actors_assemble (h : spec.Valid) : (spec.assemble.actors.map (·.name)).Nodup := by
  rw [spec.actors_assemble, List.nodup_append']
  refine ⟨h.actors, List.Nodup.filter _ (by decide), fun name hdeclared hmissing => ?_⟩
  obtain ⟨a, ha, rfl⟩ := List.mem_map.mp hdeclared
  exact bne_iff_ne.mp (List.all_eq_true.mp (List.mem_filter.mp hmissing).2 a ha) rfl

theorem cast_assemble (h : spec.Valid) : spec.assemble.Cast := by
  have hknown (s : Step C) (hs : s ∈ spec.assemble.steps) : s.declared.Known spec.actorNames :=
    h.known _ (spec.steps_declared ▸ List.mem_map.mpr ⟨s, hs, rfl⟩)
  refine ⟨fun name hname => ?_, fun s hs actor hactor => ?_, fun s hs actor hactor => ?_⟩
  · refine List.count_eq_one_of_mem (nodup_actors_assemble h) ?_
    exact List.mem_map.mpr (mem_actors_assemble (List.mem_append_right _ hname))
  · exact mem_actors_assemble (hknown s hs actor (List.mem_append_left _ hactor))
  · exact mem_actors_assemble (hknown s hs actor
      (List.mem_append_right _ (Option.mem_toList.mpr hactor)))

end ModelSpec

/-- **Every built model is a graph.** -/
theorem graph_of_build {spec : ModelSpec C} {model : Model C} (h : spec.build = .ok model) :
    model.Graph spec := by
  obtain ⟨hcheck, rfl⟩ := (spec.build_eq_ok_iff model).mp h
  have hvalid := spec.check_eq_ok_iff.mp hcheck
  exact ⟨spec.placed_assemble, ModelSpec.named_assemble hvalid, spec.partitioned_assemble,
    ModelSpec.ordered_assemble hvalid, ModelSpec.cast_assemble hvalid⟩

/-- The shop is one. -/
theorem graph_of_shop : Shop.spec.build = .ok Shop.spec.assemble ∧
    Shop.spec.assemble.Graph Shop.spec := by
  have hbuild : Shop.spec.build = .ok Shop.spec.assemble :=
    (Shop.spec.build_eq_ok_iff _).mpr ⟨rfl, rfl⟩
  exact ⟨hbuild, graph_of_build hbuild⟩

end UseCaseEngine
