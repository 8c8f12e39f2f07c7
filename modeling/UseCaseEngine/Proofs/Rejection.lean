import UseCaseEngine.Proofs.Validity

/-!
# Why specifications are rejected

A specification is a list of declarations: its actors, and then its use cases with everything that
is in them, in order. What is wrong with a declaration shows from those before it. The checks of
`ModelSpec.build` keep the names of actors and steps throughout, but start anew with the flows of
each use case; what they report is nevertheless the fault of the first declaration that has one.

* `Declaration.fault?`: what is wrong with a declaration.
* `scan_eq_error_iff`: going through declarations in order reports the first fault.
* `ModelSpec.check_eq_scan`: the checks go through the declarations in order.
* **`ModelSpec.rejected`**: which specifications are built, what is reported of the other ones, and
  that references to steps and use cases have no part in it.
-/

namespace UseCaseEngine

variable {C : Code}

/-! ## Declarations -/

/-- One thing that a specification says. -/
inductive Declaration where
  | actor (name : String)
  | useCase (name : String)
  | flow (useCase name : String)
  /-- Whether the flow has no steps. -/
  | body (useCase flow : String) (empty : Bool)
  | step (name : String)
  /-- The step is bound to the actor, or publishes to it. -/
  | reference (step actor : String)
  deriving DecidableEq

/-- The actor may be referred to. -/
def Declaration.HasActor (before : List Declaration) (actor : String) : Prop :=
  .actor actor ∈ before ∨ actor = Actor.user ∨ actor = Actor.system

instance (before : List Declaration) (actor : String) :
    Decidable (Declaration.HasActor before actor) :=
  inferInstanceAs (Decidable (_ ∨ _ ∨ _))

/-- What is wrong with a declaration after the ones before it. -/
def Declaration.fault? (before : List Declaration) : Declaration → Option ModelError
  | .actor a => if .actor a ∈ before then some (.duplicateActor a) else none
  | .useCase u => if .useCase u ∈ before then some (.duplicateUseCase u) else none
  | .flow u f => if .flow u f ∈ before then some (.duplicateFlow u f) else none
  | .body u f empty => if empty then some (.emptyFlow u f) else none
  | .step s => if .step s ∈ before then some (.duplicateStep s) else none
  | .reference s a => if HasActor before a then none else some (.unknownActor s a)

/-- What a step declares. -/
def StepSpec.declarations (s : StepSpec C) : List Declaration :=
  .step s.name :: (s.actors ++ s.publishTo.toList).map (.reference s.name)

/-- What a flow of a use case declares. -/
def FlowSpec.declarations (useCase : String) (f : FlowSpec C) : List Declaration :=
  .flow useCase f.name :: .body useCase f.name f.steps.isEmpty ::
    f.steps.flatMap StepSpec.declarations

/-- What a use case declares. -/
def UseCaseSpec.declarations (u : UseCaseSpec C) : List Declaration :=
  .useCase u.name :: u.flows.flatMap (FlowSpec.declarations u.name)

/-- What a specification declares. -/
def ModelSpec.declarations (spec : ModelSpec C) : List Declaration :=
  spec.actors.map (fun a => .actor a.name) ++ spec.useCases.flatMap UseCaseSpec.declarations

/-- The error tells what is wrong with a declaration, and nothing is wrong with any one before. -/
def ModelSpec.FirstFault (spec : ModelSpec C) (e : ModelError) : Prop :=
  ∃ before d after, spec.declarations = before ++ d :: after ∧ d.fault? before = some e ∧
    ∀ earlier x later, before = earlier ++ x :: later → x.fault? earlier = none

/-! ## Going through declarations in order -/

/-- Goes through declarations and stops at the first fault. -/
def scan : List Declaration → List Declaration → Except ModelError Unit
  | _, [] => .ok ()
  | before, d :: rest =>
    match d.fault? before with
    | some e => .error e
    | none => scan (before ++ [d]) rest

theorem scan_cons_of_fault {before rest : List Declaration} {d : Declaration} {e : ModelError}
    (h : d.fault? before = some e) : scan before (d :: rest) = .error e := by
  unfold scan
  rw [h]

theorem scan_cons_of_none {before rest : List Declaration} {d : Declaration}
    (h : d.fault? before = none) : scan before (d :: rest) = scan (before ++ [d]) rest := by
  rw [scan, h]

theorem scan_append (before first second : List Declaration) :
    scan before (first ++ second) =
      scan before first >>= fun _ => scan (before ++ first) second := by
  induction first generalizing before with
  | nil =>
    rw [List.nil_append, List.append_nil]
    rfl
  | cons d rest ih =>
    rw [List.cons_append]
    cases hfault : d.fault? before with
    | some e =>
      rw [scan_cons_of_fault hfault, scan_cons_of_fault hfault]
      rfl
    | none =>
      rw [scan_cons_of_none hfault, scan_cons_of_none hfault, ih, List.append_assoc]
      rfl

/-- **The first fault** is reported. -/
theorem scan_eq_error_iff {before ds : List Declaration} {e : ModelError} :
    scan before ds = .error e ↔
      ∃ first d after, ds = first ++ d :: after ∧ d.fault? (before ++ first) = some e ∧
        ∀ earlier x later, first = earlier ++ x :: later → x.fault? (before ++ earlier) = none := by
  induction ds generalizing before with
  | nil =>
    refine iff_of_false nofun ?_
    rintro ⟨first, d, after, h, -⟩
    exact absurd h.symm (by simp)
  | cons d rest ih =>
    cases hfault : d.fault? before with
    | some e' =>
      rw [scan_cons_of_fault hfault]
      constructor
      · rintro ⟨⟩
        refine ⟨[], d, rest, rfl, by rwa [List.append_nil], fun earlier x later h => ?_⟩
        exact absurd h.symm (by simp)
      · rintro ⟨first, x, after, hsplit, hx, hnone⟩
        cases first with
        | nil =>
          obtain ⟨rfl, rfl⟩ := List.cons.inj hsplit
          rw [List.append_nil, hfault] at hx
          exact congrArg Except.error (Option.some.inj hx)
        | cons y first =>
          obtain ⟨rfl, -⟩ := List.cons.inj hsplit
          have hnot := hnone [] d first rfl
          rw [List.append_nil, hfault] at hnot
          cases hnot
    | none =>
      rw [scan_cons_of_none hfault, ih]
      constructor
      · rintro ⟨first, x, after, rfl, hx, hnone⟩
        refine ⟨d :: first, x, after, rfl, by rwa [List.append_assoc] at hx, ?_⟩
        intro earlier y later hsplit
        cases earlier with
        | nil =>
          obtain ⟨rfl, -⟩ := List.cons.inj hsplit
          rwa [List.append_nil]
        | cons z earlier =>
          obtain ⟨rfl, hrest⟩ := List.cons.inj hsplit
          have hy := hnone earlier y later hrest
          rwa [List.append_assoc] at hy
      · rintro ⟨first, x, after, hsplit, hx, hnone⟩
        cases first with
        | nil =>
          obtain ⟨rfl, -⟩ := List.cons.inj hsplit
          rw [List.append_nil, hfault] at hx
          cases hx
        | cons y first =>
          obtain ⟨rfl, rfl⟩ := List.cons.inj hsplit
          refine ⟨first, x, after, rfl, by rwa [List.append_assoc], fun earlier z later h => ?_⟩
          have hz := hnone (d :: earlier) z later (congrArg (List.cons d) h)
          rwa [List.append_assoc]

/-! ## The checks -/

/-- What the checks remember of the declarations so far. -/
structure Remembers (before : List Declaration) (known seen : List String) : Prop where
  known : ∀ actor, actor ∈ known ↔ Declaration.HasActor before actor
  seen : ∀ name, name ∈ seen ↔ .step name ∈ before

/-- Declarations of neither actors nor steps leave this as it is. -/
theorem Remembers.append {before more : List Declaration} {known seen : List String}
    (h : Remembers before known seen) (names : List String) (hactors : ∀ name, .actor name ∉ more)
    (hsteps : ∀ name, .step name ∈ more ↔ name ∈ names) :
    Remembers (before ++ more) known (names.reverse ++ seen) where
  known actor := by
    rw [h.known]
    simp [Declaration.HasActor, hactors]
  seen name := by
    simp [h.seen, hsteps, or_comm]

namespace ModelSpec

theorem checkActors_eq_scan {before : List Declaration} {seen : List String}
    (hseen : ∀ name, name ∈ seen ↔ .actor name ∈ before) (actors : List (Actor C)) :
    checkActors seen actors = (scan before (actors.map fun a => .actor a.name)).map
      fun _ => (actors.map (·.name)).reverse ++ seen := by
  induction actors generalizing before seen with
  | nil => rfl
  | cons a rest ih =>
    rw [checkActors, List.map_cons, List.map_cons]
    by_cases ha : a.name ∈ seen
    · have hfault : (Declaration.actor a.name).fault? before = some (.duplicateActor a.name) :=
        if_pos ((hseen _).mp ha)
      rw [if_pos ha, scan_cons_of_fault hfault]
      rfl
    · have hfault : (Declaration.actor a.name).fault? before = none :=
        if_neg fun h => ha ((hseen _).mpr h)
      have hseen' (name : String) : name ∈ a.name :: seen ↔
          .actor name ∈ before ++ [.actor a.name] := by simp [hseen, or_comm]
      rw [if_neg ha, scan_cons_of_none hfault, ih hseen']
      simp

theorem scan_references {known : List String} {step : String} {before : List Declaration}
    (hknown : ∀ actor, actor ∈ known ↔ Declaration.HasActor before actor) (actors : List String) :
    scan before (actors.map (.reference step)) =
      match actors.find? (· ∉ known) with
      | some actor => .error (.unknownActor step actor)
      | none => .ok () := by
  induction actors generalizing before with
  | nil => rfl
  | cons actor rest ih =>
    rw [List.map_cons]
    by_cases hactor : actor ∈ known
    · have hfault : (Declaration.reference step actor).fault? before = none :=
        if_pos ((hknown _).mp hactor)
      rw [scan_cons_of_none hfault, List.find?_cons_of_neg (by simpa using hactor), ih]
      intro actor
      rw [hknown]
      simp [Declaration.HasActor]
    · have hfault : (Declaration.reference step actor).fault? before =
          some (.unknownActor step actor) :=
        if_neg fun h => hactor ((hknown _).mpr h)
      rw [scan_cons_of_fault hfault, List.find?_cons_of_pos (by simpa using hactor)]

variable {before : List Declaration} {known seen : List String}

theorem checkStep_eq_scan (hremembers : Remembers before known seen) (s : StepSpec C) :
    checkStep known seen s = scan before s.declarations := by
  unfold checkStep StepSpec.declarations
  by_cases hname : s.name ∈ seen
  · have hfault : (Declaration.step s.name).fault? before = some (.duplicateStep s.name) :=
      if_pos ((hremembers.seen _).mp hname)
    rw [if_pos hname, scan_cons_of_fault hfault]
  · have hfault : (Declaration.step s.name).fault? before = none :=
      if_neg fun h => hname ((hremembers.seen _).mpr h)
    have hknown (actor : String) :
        actor ∈ known ↔ Declaration.HasActor (before ++ [.step s.name]) actor := by
      rw [hremembers.known]
      simp [Declaration.HasActor]
    rw [if_neg hname, scan_cons_of_none hfault]
    exact (scan_references hknown _).symm

theorem remembers_step (hremembers : Remembers before known seen) (s : StepSpec C) :
    Remembers (before ++ s.declarations) known (s.name :: seen) :=
  hremembers.append [s.name] (by simp [StepSpec.declarations])
    (by simp [StepSpec.declarations])

theorem checkSteps_eq_scan (hremembers : Remembers before known seen) (steps : List (StepSpec C)) :
    checkSteps known seen steps = (scan before (steps.flatMap StepSpec.declarations)).map
      fun _ => (steps.map (·.name)).reverse ++ seen := by
  induction steps generalizing before seen with
  | nil => rfl
  | cons s rest ih =>
    rw [checkSteps, checkStep_eq_scan hremembers, List.flatMap_cons, scan_append]
    cases scan before s.declarations with
    | error e => rfl
    | ok _ =>
      change checkSteps known (s.name :: seen) rest = Except.map _ (scan _ _)
      rw [ih (remembers_step hremembers s)]
      simp

theorem step_mem_steps (steps : List (StepSpec C)) (name : String) :
    .step name ∈ steps.flatMap StepSpec.declarations ↔ name ∈ steps.map (·.name) := by
  simp [StepSpec.declarations, eq_comm]

/-- What is remembered after a flow. -/
theorem remembers_flow (hremembers : Remembers before known seen) (useCase : String)
    (f : FlowSpec C) : Remembers (before ++ f.declarations useCase) known
      ((f.steps.map (·.name)).reverse ++ seen) := by
  refine hremembers.append _ (fun name => ?_) fun name => ?_
  · simp [FlowSpec.declarations, StepSpec.declarations]
  · rw [FlowSpec.declarations, List.mem_cons, List.mem_cons, step_mem_steps]
    simp

theorem flow_mem_flow (useCase u name : String) (f : FlowSpec C) :
    .flow u name ∈ f.declarations useCase ↔ u = useCase ∧ name = f.name := by
  simp [FlowSpec.declarations, StepSpec.declarations]

theorem scan_flow {useCase : String} {named : List String}
    (hnamed : ∀ name, name ∈ named ↔ .flow useCase name ∈ before) (f : FlowSpec C) :
    scan before (f.declarations useCase) =
      if f.name ∈ named then .error (.duplicateFlow useCase f.name)
      else if f.steps.isEmpty then .error (.emptyFlow useCase f.name)
      else scan (before ++ [.flow useCase f.name, .body useCase f.name f.steps.isEmpty])
        (f.steps.flatMap StepSpec.declarations) := by
  unfold FlowSpec.declarations
  by_cases hname : f.name ∈ named
  · have hfault : (Declaration.flow useCase f.name).fault? before =
        some (.duplicateFlow useCase f.name) := if_pos ((hnamed _).mp hname)
    rw [if_pos hname, scan_cons_of_fault hfault]
  have hnew : (Declaration.flow useCase f.name).fault? before = none :=
    if_neg fun h => hname ((hnamed _).mpr h)
  rw [if_neg hname, scan_cons_of_none hnew]
  by_cases hempty : f.steps.isEmpty = true
  · have hfault : (Declaration.body useCase f.name f.steps.isEmpty).fault?
        (before ++ [.flow useCase f.name]) = some (.emptyFlow useCase f.name) := if_pos hempty
    rw [if_pos hempty, scan_cons_of_fault hfault]
  · have hfault : (Declaration.body useCase f.name f.steps.isEmpty).fault?
        (before ++ [.flow useCase f.name]) = none := if_neg hempty
    rw [if_neg hempty, scan_cons_of_none hfault, List.append_assoc]
    rfl

theorem checkFlows_eq_scan (hremembers : Remembers before known seen) {useCase : String}
    {named : List String} (hnamed : ∀ name, name ∈ named ↔ .flow useCase name ∈ before)
    (flows : List (FlowSpec C)) :
    checkFlows known useCase named seen flows =
      (scan before (flows.flatMap (FlowSpec.declarations useCase))).map
        fun _ => ((stepsOf flows).map (·.name)).reverse ++ seen := by
  induction flows generalizing before named seen with
  | nil => rfl
  | cons f rest ih =>
    have hinside : Remembers
        (before ++ [.flow useCase f.name, .body useCase f.name f.steps.isEmpty]) known seen :=
      hremembers.append [] (by simp) (by simp)
    have hnamed' (name : String) : name ∈ f.name :: named ↔
        .flow useCase name ∈ before ++ f.declarations useCase := by
      rw [List.mem_append, ← hnamed, flow_mem_flow, List.mem_cons]
      simp [or_comm]
    rw [checkFlows, List.flatMap_cons, scan_append, scan_flow hnamed, checkSteps_eq_scan hinside]
    by_cases hname : f.name ∈ named
    · rw [if_pos hname, if_pos hname]
      rfl
    rw [if_neg hname, if_neg hname]
    by_cases hempty : f.steps.isEmpty = true
    · rw [if_pos hempty, if_pos hempty]
      rfl
    rw [if_neg hempty, if_neg hempty]
    cases scan _ (f.steps.flatMap StepSpec.declarations) with
    | error e => rfl
    | ok _ =>
      change checkFlows known useCase (f.name :: named) _ rest = Except.map _ (scan _ _)
      rw [ih (remembers_flow hremembers useCase f) hnamed']
      simp [stepsOf]

/-- What is remembered after a use case. -/
theorem remembers_useCase (hremembers : Remembers before known seen) (u : UseCaseSpec C) :
    Remembers (before ++ u.declarations) known
      (((stepsOf u.flows).map (·.name)).reverse ++ seen) := by
  refine hremembers.append _ (fun name => ?_) fun name => ?_
  · simp [UseCaseSpec.declarations, FlowSpec.declarations, StepSpec.declarations]
  · rw [stepsOf, List.map_flatMap]
    simp [UseCaseSpec.declarations, FlowSpec.declarations, StepSpec.declarations, eq_comm]

theorem checkUseCases_eq_scan (hremembers : Remembers before known seen) {named : List String}
    (hnamed : ∀ name, name ∈ named ↔ .useCase name ∈ before)
    (howned : ∀ u f, .flow u f ∈ before → .useCase u ∈ before) (useCases : List (UseCaseSpec C)) :
    checkUseCases known named seen useCases =
      (scan before (useCases.flatMap UseCaseSpec.declarations)).map
        fun _ => ((stepsOf (flowsOf useCases)).map (·.name)).reverse ++ seen := by
  induction useCases generalizing before named seen with
  | nil => rfl
  | cons u rest ih =>
    rw [checkUseCases, List.flatMap_cons, scan_append]
    by_cases hname : u.name ∈ named
    · have hfault : (Declaration.useCase u.name).fault? before = some (.duplicateUseCase u.name) :=
        if_pos ((hnamed _).mp hname)
      rw [if_pos hname, UseCaseSpec.declarations, scan_cons_of_fault hfault]
      rfl
    have hfault : (Declaration.useCase u.name).fault? before = none :=
      if_neg fun h => hname ((hnamed _).mpr h)
    have hinside : Remembers (before ++ [.useCase u.name]) known seen :=
      hremembers.append [] (by simp) (by simp)
    -- The use case is new, so that it has no flows yet.
    have hnone (name : String) : name ∈ ([] : List String) ↔
        .flow u.name name ∈ before ++ [.useCase u.name] := by
      refine iff_of_false List.not_mem_nil fun h => ?_
      have hflow : .flow u.name name ∈ before := by simpa using h
      exact hname ((hnamed _).mpr (howned _ _ hflow))
    have hnamed' (name : String) :
        name ∈ u.name :: named ↔ .useCase name ∈ before ++ u.declarations := by
      rw [List.mem_append, ← hnamed]
      simp [UseCaseSpec.declarations, FlowSpec.declarations, StepSpec.declarations, or_comm]
    have howned' (v f : String) (h : .flow v f ∈ before ++ u.declarations) :
        .useCase v ∈ before ++ u.declarations := by
      rcases List.mem_append.mp h with h | h
      · exact List.mem_append_left _ (howned v f h)
      · simp only [UseCaseSpec.declarations, List.mem_cons, List.mem_flatMap, flow_mem_flow,
          reduceCtorEq, false_or] at h
        obtain ⟨-, -, rfl, -⟩ := h
        simp [UseCaseSpec.declarations]
    rw [if_neg hname, checkFlows_eq_scan hinside hnone]
    have hscan : scan before u.declarations =
        scan (before ++ [.useCase u.name]) (u.flows.flatMap (FlowSpec.declarations u.name)) :=
      scan_cons_of_none hfault
    rw [hscan]
    cases scan _ (u.flows.flatMap (FlowSpec.declarations u.name)) with
    | error e => rfl
    | ok _ =>
      change checkUseCases known (u.name :: named) _ rest = Except.map _ (scan _ _)
      rw [ih (remembers_useCase hremembers u) hnamed' howned']
      simp [stepsOf, flowsOf]

/-- **The checks** go through the declarations in order. -/
theorem check_eq_scan (spec : ModelSpec C) : spec.check = scan [] spec.declarations := by
  unfold check declarations
  have hnone (name : String) : name ∈ [] ↔ .actor name ∈ ([] : List Declaration) := by simp
  rw [checkActors_eq_scan hnone, scan_append, List.nil_append]
  cases scan [] (spec.actors.map fun a => .actor a.name) with
  | error e => rfl
  | ok _ =>
    have hremembers : Remembers (spec.actors.map fun a => .actor a.name)
        (((spec.actors.map (·.name)).reverse ++ []) ++ [Actor.user, Actor.system]) [] :=
      ⟨by simp [Declaration.HasActor], by simp⟩
    change (checkUseCases _ [] [] spec.useCases >>= fun _ => Except.ok ()) = scan _ _
    rw [checkUseCases_eq_scan hremembers (by simp) (by simp)]
    cases scan _ (spec.useCases.flatMap UseCaseSpec.declarations) <;> rfl

theorem build_eq_error_iff (spec : ModelSpec C) (e : ModelError) :
    spec.build = .error e ↔ spec.check = .error e := by
  unfold build
  cases spec.check with
  | ok _ => exact iff_of_false nofun nofun
  | error e' =>
    constructor <;> rintro ⟨⟩ <;> rfl

/-- The specification with other positions of flows and other reactions of steps, which is where
steps and use cases are referred to. -/
def redirect (spec : ModelSpec C) (position : FlowSpec C → Option Position)
    (reaction : StepSpec C → Reaction C) : ModelSpec C :=
  { spec with
    useCases := spec.useCases.map fun u =>
      { u with
        flows := u.flows.map fun f =>
          { f with
            position := position f
            steps := f.steps.map fun s => s.reacting (reaction s) } } }

theorem declarations_redirect (spec : ModelSpec C) (position : FlowSpec C → Option Position)
    (reaction : StepSpec C → Reaction C) :
    (spec.redirect position reaction).declarations = spec.declarations := by
  simp only [declarations, redirect, UseCaseSpec.declarations, FlowSpec.declarations,
    List.flatMap_map, List.isEmpty_map]
  rfl

/-- **Why specifications are rejected.** A model is built just if the specification is valid. What
is reported otherwise is what is wrong with the first declaration that is at fault. References from
positions of flows and from reactions of steps do not matter: whatever they are, the specification
is built, or rejected for the same reason. -/
theorem rejected (spec : ModelSpec C) :
    ((∃ model, spec.build = .ok model) ↔ spec.Valid) ∧
      (∀ e, spec.build = .error e ↔ spec.FirstFault e) ∧
      ∀ position reaction e,
        (spec.redirect position reaction).build = .error e ↔ spec.build = .error e := by
  have herror (spec : ModelSpec C) (e : ModelError) :
      spec.build = .error e ↔ scan [] spec.declarations = .error e := by
    rw [build_eq_error_iff, check_eq_scan]
  refine ⟨?_, fun e => ?_, fun position reaction e => ?_⟩
  · rw [← check_eq_ok_iff]
    constructor
    · rintro ⟨model, hmodel⟩
      exact ((build_eq_ok_iff spec model).mp hmodel).1
    · intro hcheck
      exact ⟨spec.assemble, (build_eq_ok_iff spec _).mpr ⟨hcheck, rfl⟩⟩
  · rw [herror, scan_eq_error_iff]
    rfl
  · rw [herror, herror, declarations_redirect]

end ModelSpec

end UseCaseEngine
