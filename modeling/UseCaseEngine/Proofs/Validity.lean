import UseCaseEngine.Proofs.Placement

/-!
# Which specifications are built

The checks of `ModelSpec.build` go through a specification once and remember the names they came
across. What they let through is `Valid`, which says the same without an order: the names are
distinct, no flow is empty, and whoever is bound to a step or is published to is known. Which error
is reported of those that are not is in `ModelSpec.rejected`.

* **`ModelSpec.check_eq_ok_iff`**: a specification passes the checks just if it is valid.
-/

namespace UseCaseEngine

variable {C : Code}

/-- A sequence succeeds if its first part does, and its second with what the first one gives. -/
theorem bind_eq_ok_iff {α β ε : Type} {b : β} {x : Except ε α} {f : α → Except ε β} :
    (x >>= f) = .ok b ↔ ∃ a, x = .ok a ∧ f a = .ok b := by
  cases x with
  | error e => exact ⟨nofun, fun ⟨_, h, _⟩ => nomatch h⟩
  | ok a => exact ⟨fun h => ⟨a, rfl, h⟩, fun ⟨_, h, hf⟩ => by cases h; exact hf⟩

/-! ## Names -/

/-- The names are distinct, and none of them was seen before. -/
def AllNew (seen names : List String) : Prop := names.Nodup ∧ ∀ name ∈ names, name ∉ seen

theorem allNew_nil (seen : List String) : AllNew seen [] := ⟨List.nodup_nil, nofun⟩

theorem nodup_iff_allNew {names : List String} : AllNew [] names ↔ names.Nodup :=
  ⟨And.left, fun h => ⟨h, fun _ _ => List.not_mem_nil⟩⟩

/-- Names can be checked one at a time. -/
theorem allNew_cons {seen rest : List String} {name : String} :
    AllNew seen (name :: rest) ↔ name ∉ seen ∧ AllNew (name :: seen) rest := by
  unfold AllNew
  rw [List.nodup_cons, List.forall_mem_cons]
  constructor
  · rintro ⟨⟨hrest, hnodup⟩, hname, hseen⟩
    refine ⟨hname, hnodup, fun n hn hmem => ?_⟩
    rcases List.mem_cons.mp hmem with rfl | hmem
    · exact hrest hn
    · exact hseen n hn hmem
  · rintro ⟨hname, hnodup, hseen⟩
    refine ⟨⟨fun hmem => hseen name hmem List.mem_cons_self, hnodup⟩, hname, fun n hn hmem => ?_⟩
    exact hseen n hn (List.mem_cons_of_mem _ hmem)

/-- Or one list after another. -/
theorem allNew_append {seen names more : List String} :
    AllNew seen (names ++ more) ↔ AllNew seen names ∧ AllNew (names.reverse ++ seen) more := by
  induction names generalizing seen with
  | nil => exact ⟨fun h => ⟨allNew_nil seen, h⟩, And.right⟩
  | cons name names ih =>
    rw [List.cons_append, allNew_cons, allNew_cons, ih, and_assoc, List.reverse_cons,
      List.append_assoc, List.singleton_append]

/-! ## The checks -/

/-- Whoever the step is bound to or publishes to is known. -/
def StepSpec.Known (known : List String) (s : StepSpec C) : Prop :=
  ∀ actor ∈ s.actors ++ s.publishTo.toList, actor ∈ known

namespace ModelSpec

theorem checkActors_eq_ok_iff {seen names : List String} {actors : List (Actor C)} :
    checkActors seen actors = .ok names ↔
      AllNew seen (actors.map (·.name)) ∧ names = (actors.map (·.name)).reverse ++ seen := by
  induction actors generalizing seen with
  | nil => simp [checkActors, allNew_nil, eq_comm]
  | cons a rest ih =>
    rw [checkActors, List.map_cons, allNew_cons, List.reverse_cons, List.append_assoc,
      List.singleton_append]
    split
    · rename_i hseen
      simp [hseen]
    · rename_i hseen
      rw [ih]
      simp [hseen]

theorem checkStep_eq_ok_iff {known seen : List String} {s : StepSpec C} :
    checkStep known seen s = .ok () ↔ s.name ∉ seen ∧ s.Known known := by
  unfold checkStep StepSpec.Known
  split
  · rename_i hseen
    simp [hseen]
  · rename_i hseen
    split
    · rename_i actor hfind
      have hunknown := List.find?_some hfind
      have hmem := List.mem_of_find?_eq_some hfind
      simp only [reduceCtorEq, false_iff, not_and]
      exact fun _ hknown => (of_decide_eq_true hunknown) (hknown actor hmem)
    · rename_i hfind
      rw [List.find?_eq_none] at hfind
      refine iff_of_true rfl ⟨hseen, fun actor hactor => ?_⟩
      simpa using hfind actor hactor

theorem checkSteps_eq_ok_iff {known seen names : List String} {steps : List (StepSpec C)} :
    checkSteps known seen steps = .ok names ↔
      AllNew seen (steps.map (·.name)) ∧ (∀ s ∈ steps, s.Known known) ∧
        names = (steps.map (·.name)).reverse ++ seen := by
  induction steps generalizing seen with
  | nil => simp [checkSteps, allNew_nil, eq_comm]
  | cons s rest ih =>
    rw [checkSteps, bind_eq_ok_iff, List.map_cons, allNew_cons, List.reverse_cons,
      List.append_assoc, List.singleton_append, List.forall_mem_cons]
    constructor
    · rintro ⟨⟨⟩, hstep, hrest⟩
      obtain ⟨hseen, hknown⟩ := checkStep_eq_ok_iff.mp hstep
      obtain ⟨hnew, hall, hnames⟩ := ih.mp hrest
      exact ⟨⟨hseen, hnew⟩, ⟨hknown, hall⟩, hnames⟩
    · rintro ⟨⟨hseen, hnew⟩, ⟨hknown, hall⟩, hnames⟩
      exact ⟨(), checkStep_eq_ok_iff.mpr ⟨hseen, hknown⟩, ih.mpr ⟨hnew, hall, hnames⟩⟩

/-- The steps of several flows, in order. -/
def stepsOf (flows : List (FlowSpec C)) : List (StepSpec C) := flows.flatMap (·.steps)

theorem checkFlows_eq_ok_iff {known : List String} {useCase : String}
    {named seen names : List String} {flows : List (FlowSpec C)} :
    checkFlows known useCase named seen flows = .ok names ↔
      AllNew named (flows.map (·.name)) ∧ (∀ f ∈ flows, f.steps ≠ []) ∧
        AllNew seen ((stepsOf flows).map (·.name)) ∧
        (∀ s ∈ stepsOf flows, s.Known known) ∧
        names = ((stepsOf flows).map (·.name)).reverse ++ seen := by
  induction flows generalizing named seen with
  | nil => simp [checkFlows, stepsOf, allNew_nil, eq_comm]
  | cons f rest ih =>
    have hsteps : stepsOf (f :: rest) = f.steps ++ stepsOf rest := rfl
    rw [checkFlows, hsteps, List.map_cons, allNew_cons, List.map_append, allNew_append,
      List.forall_mem_cons, List.forall_mem_append, List.reverse_append, List.append_assoc]
    split
    · rename_i hnamed
      simp [hnamed]
    · split
      · rename_i hempty
        simp [List.isEmpty_iff.mp hempty]
      · rename_i hnamed hempty
        rw [List.isEmpty_iff] at hempty
        rw [bind_eq_ok_iff]
        constructor
        · rintro ⟨names', hflow, hrest⟩
          obtain ⟨hnew, hknown, rfl⟩ := checkSteps_eq_ok_iff.mp hflow
          obtain ⟨hflows, hnonempty, hnew', hknown', hnames⟩ := ih.mp hrest
          exact ⟨⟨hnamed, hflows⟩, ⟨hempty, hnonempty⟩, ⟨hnew, hnew'⟩, ⟨hknown, hknown'⟩, hnames⟩
        · rintro ⟨⟨-, hflows⟩, ⟨-, hnonempty⟩, ⟨hnew, hnew'⟩, ⟨hknown, hknown'⟩, hnames⟩
          exact ⟨_, checkSteps_eq_ok_iff.mpr ⟨hnew, hknown, rfl⟩,
            ih.mpr ⟨hflows, hnonempty, hnew', hknown', hnames⟩⟩

/-- The flows of several use cases, in order. -/
def flowsOf (useCases : List (UseCaseSpec C)) : List (FlowSpec C) := useCases.flatMap (·.flows)

theorem checkUseCases_eq_ok_iff {known named seen names : List String}
    {useCases : List (UseCaseSpec C)} :
    checkUseCases known named seen useCases = .ok names ↔
      AllNew named (useCases.map (·.name)) ∧
        (∀ u ∈ useCases, (u.flows.map (·.name)).Nodup) ∧
        (∀ f ∈ flowsOf useCases, f.steps ≠ []) ∧
        AllNew seen ((stepsOf (flowsOf useCases)).map (·.name)) ∧
        (∀ s ∈ stepsOf (flowsOf useCases), s.Known known) ∧
        names = ((stepsOf (flowsOf useCases)).map (·.name)).reverse ++ seen := by
  induction useCases generalizing named seen with
  | nil => simp [checkUseCases, stepsOf, flowsOf, allNew_nil, eq_comm]
  | cons u rest ih =>
    have hflows : flowsOf (u :: rest) = u.flows ++ flowsOf rest := rfl
    have hsteps : stepsOf (u.flows ++ flowsOf rest) =
        stepsOf u.flows ++ stepsOf (flowsOf rest) := List.flatMap_append
    rw [checkUseCases, hflows, hsteps, List.map_cons, allNew_cons, List.map_append, allNew_append,
      List.forall_mem_cons, List.forall_mem_append, List.forall_mem_append, List.reverse_append,
      List.append_assoc]
    split
    · rename_i hnamed
      simp [hnamed]
    · rename_i hnamed
      rw [bind_eq_ok_iff]
      constructor
      · rintro ⟨names', huseCase, hrest⟩
        obtain ⟨hdistinct, hnonempty, hnew, hknown, rfl⟩ := checkFlows_eq_ok_iff.mp huseCase
        obtain ⟨huseCases, hdistinct', hnonempty', hnew', hknown', hnames⟩ := ih.mp hrest
        exact ⟨⟨hnamed, huseCases⟩, ⟨nodup_iff_allNew.mp hdistinct, hdistinct'⟩,
          ⟨hnonempty, hnonempty'⟩, ⟨hnew, hnew'⟩, ⟨hknown, hknown'⟩, hnames⟩
      · rintro ⟨⟨-, huseCases⟩, ⟨hdistinct, hdistinct'⟩, ⟨hnonempty, hnonempty'⟩, ⟨hnew, hnew'⟩,
          ⟨hknown, hknown'⟩, hnames⟩
        exact ⟨_, checkFlows_eq_ok_iff.mpr
          ⟨nodup_iff_allNew.mpr hdistinct, hnonempty, hnew, hknown, rfl⟩,
          ih.mpr ⟨huseCases, hdistinct', hnonempty', hnew', hknown', hnames⟩⟩

/-! ## Valid specifications -/

variable (spec : ModelSpec C)

/-- The flows of a specification, in order. -/
def flows : List (FlowSpec C) := flowsOf spec.useCases

/-- Its steps, in order. -/
def steps : List (StepSpec C) := stepsOf spec.flows

/-- The names of the actors that its steps may refer to. -/
def actorNames : List String := spec.actors.map (·.name) ++ [Actor.user, Actor.system]

/-- What a specification must be for a model to be built from it. -/
structure Valid : Prop where
  actors : (spec.actors.map (·.name)).Nodup
  useCases : (spec.useCases.map (·.name)).Nodup
  flowNames : ∀ u ∈ spec.useCases, (u.flows.map (·.name)).Nodup
  nonempty : ∀ f ∈ spec.flows, f.steps ≠ []
  stepNames : (spec.steps.map (·.name)).Nodup
  known : ∀ s ∈ spec.steps, s.Known spec.actorNames

/-- **A specification passes the checks** just if it is valid. -/
theorem check_eq_ok_iff : spec.check = .ok () ↔ spec.Valid := by
  have hknown (s : StepSpec C) :
      s.Known (((spec.actors.map (·.name)).reverse ++ []) ++ [Actor.user, Actor.system]) ↔
        s.Known spec.actorNames := by
    simp [StepSpec.Known, actorNames]
  unfold check
  rw [bind_eq_ok_iff]
  constructor
  · rintro ⟨declared, hactors, hrest⟩
    obtain ⟨names, huseCases, -⟩ := bind_eq_ok_iff.mp hrest
    obtain ⟨hdistinct, rfl⟩ := checkActors_eq_ok_iff.mp hactors
    obtain ⟨huseCases, hflows, hnonempty, hsteps, hall, -⟩ :=
      checkUseCases_eq_ok_iff.mp huseCases
    exact ⟨nodup_iff_allNew.mp hdistinct, nodup_iff_allNew.mp huseCases, hflows, hnonempty,
      nodup_iff_allNew.mp hsteps, fun s hs => (hknown s).mp (hall s hs)⟩
  · intro h
    refine ⟨_, checkActors_eq_ok_iff.mpr ⟨nodup_iff_allNew.mpr h.actors, rfl⟩, ?_⟩
    refine bind_eq_ok_iff.mpr ⟨_, checkUseCases_eq_ok_iff.mpr ⟨nodup_iff_allNew.mpr h.useCases,
      h.flowNames, h.nonempty, nodup_iff_allNew.mpr h.stepNames, fun s hs => ?_, rfl⟩, rfl⟩
    exact (hknown s).mpr (h.known s hs)

end ModelSpec

end UseCaseEngine
