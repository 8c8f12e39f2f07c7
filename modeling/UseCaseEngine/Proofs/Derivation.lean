import Mathlib.Logic.Relation
import Mathlib.Data.List.Nodup
import Mathlib.Data.List.Perm.Subperm
import UseCaseEngine.Example.Inn
import UseCaseEngine.Proofs.Positions
import UseCaseEngine.Proofs.Recovery

/-!
# Positions are derived

With fixed answers of guards, a position either can be derived by the rules of positions, or it
cannot, or the question leads to a name that no step has. `stands` (`step_holds`) follows the flows
that stand in for steps no further than its budget allows. As a step enters one flow only, a chain
of them that ends is no longer than there are flows; so a budget of that many is always enough.

Out of scope: guards that answer differently when they are asked again. That positions are then
still found by these rules only is in `Stands`.

* `Derivable`: the rules of positions, with fixed answers.
* `Defers`, `Strands`: a flow that stands in for a step hands the question on, and a name that no
  step has leaves it without an answer.
* `EndsAfter.le_length`: chains that end are short.
* **`stands_iff_derivable`**: what `stands` comes to, for every budget that is large enough.
-/

namespace UseCaseEngine

variable {C : Code}

/-! ## The rules -/

section Rules

variable (ν : C.Guard → Bool) (model : Model C) (c : Cursor)

/-- The run stands on the step, and the step is done repeating, as the answers are fixed. -/
abbrev ComesAfter (id : StepId) : Prop := StandsAfter model c (ν · = ·) id

/-- How a flow without a position and a guard is entered. -/
inductive EntersByDefault (flow : Flow C) : Prop where
  /-- The run has just started. -/
  | start (hbasic : model.isBasicFlow flow = true)
      (hincluded : model.isIncluded flow.useCase = false) (h : c.latest = none)
  /-- The flow's use case has just been included. -/
  | inclusion {frame : Frame} (hbasic : model.isBasicFlow flow = true)
      (hincluded : model.isIncluded flow.useCase = true) (hframe : c.frames.head? = some frame)
      (huseCase : frame.included = flow.useCase) (h : c.latest = some frame.includeStep)
  /-- The flow that is declared before it has just ended. -/
  | following {before : Flow C} {last : StepId} (hbasic : model.isBasicFlow flow = false)
      (hbefore : (model.precedingFlow? flow).bind model.flow? = some before)
      (hlast : before.steps.getLast? = some last) (h : ComesAfter ν model c last)

/-- **The position of a step can be derived.** -/
inductive Derivable : Step C → Prop where
  /-- A continuation made the step the next one. -/
  | pending {s : Step C} (h : c.continueAt = some s.id) : Derivable s
  /-- The step before it is the latest, and done repeating. -/
  | behind {s : Step C} {previous : StepId} (hprevious : s.previous = some previous)
      (h : ComesAfter ν model c previous) : Derivable s
  | anytime {s : Step C} {flow : Flow C} (henters : model.Enters s flow)
      (hposition : flow.position = some .anytime) : Derivable s
  /-- One of the steps that the flow names is the latest, and done repeating. -/
  | after {s named : Step C} {flow : Flow C} {names : List String} {steps : List (Step C)}
      (henters : model.Enters s flow) (hposition : flow.position = some (.after names))
      (hsteps : model.resolveAll names = .ok steps) (hnamed : named ∈ steps)
      (h : ComesAfter ν model c named.id) : Derivable s
  /-- The position of the step that the flow stands in for can be derived. -/
  | insteadOf {s replaced : Step C} {flow : Flow C} {name : String} (henters : model.Enters s flow)
      (hposition : flow.position = some (.insteadOf name))
      (hreplaced : model.resolve name = .ok replaced) (h : Derivable replaced) : Derivable s
  | guarded {s : Step C} {flow : Flow C} (henters : model.Enters s flow)
      (hposition : flow.position = none) (hguard : flow.guard.isSome = true) : Derivable s
  | byDefault {s : Step C} {flow : Flow C} (henters : model.Enters s flow)
      (hdefault : flow.IsDefault) (h : EntersByDefault ν model c flow) : Derivable s

end Rules

section Chains

variable (model : Model C) (c : Cursor)

/-- The step is not the next one anyway, and enters a flow in place of the other one. -/
def Defers (s t : Step C) : Prop := c.continueAt ≠ some s.id ∧ model.StandsInFor s t

/-- The step is not the next one anyway, and enters a flow whose position refers to the name, the
first one that no step has. -/
def Dangles (s : Step C) (name : String) : Prop :=
  c.continueAt ≠ some s.id ∧ ∃ flow position, model.Enters s flow ∧
    flow.position = some position ∧
      position.names.find? (fun name => (model.stepNamed? name).isNone) = some name

/-- The flows that stand in for steps lead from the step to one whose flow refers to the name,
which no step has. -/
def Strands (s : Step C) (name : String) : Prop :=
  ∃ t, Relation.ReflTransGen (Defers model c) s t ∧ Dangles model c t name

/-- The flows that stand in for steps lead from one step to another one, over so many steps, and no
further. -/
inductive EndsAfter : Nat → Step C → Step C → Prop where
  | here {s : Step C} (h : ∀ t, ¬ Defers model c s t) : EndsAfter 0 s s
  | there {n : Nat} {s t last : Step C} (h : Defers model c s t) (hends : EndsAfter n t last) :
      EndsAfter (n + 1) s last

end Chains

/-! ## Names that no step has -/

namespace Model

variable {model : Model C}

/-- Several names are looked up in vain because of the first one that no step has. -/
theorem resolveAll_of_find? {names : List String} {name : String}
    (h : names.find? (fun name => (model.stepNamed? name).isNone) = some name) :
    model.resolveAll names = .error (.unknownStep name) := by
  induction names with
  | nil => cases h
  | cons first rest ih =>
    rw [List.find?_cons] at h
    unfold resolveAll resolve
    cases hfirst : model.stepNamed? first with
    | none =>
      rw [hfirst] at h
      cases h
      rfl
    | some s =>
      rw [hfirst] at h
      rw [ih h]
      rfl

theorem exists_resolveAll {names : List String}
    (h : names.find? (fun name => (model.stepNamed? name).isNone) = none) :
    ∃ steps, model.resolveAll names = .ok steps := by
  induction names with
  | nil => exact ⟨[], rfl⟩
  | cons first rest ih =>
    rw [List.find?_cons] at h
    cases hfirst : model.stepNamed? first with
    | none =>
      rw [hfirst] at h
      cases h
    | some s =>
      rw [hfirst] at h
      obtain ⟨steps, hsteps⟩ := ih h
      refine ⟨s :: steps, ?_⟩
      unfold resolveAll resolve
      rw [hfirst, hsteps]
      rfl

end Model

/-! ## Single answers -/

section Answers

variable {ν : C.Guard → Bool} {model : Model C} {c : Cursor}

theorem loops_eq_iff {s : Step C} {answer : Bool} :
    (s.loops (m := Id) ν).run = answer ↔ s.SaysLoop (ν · = ·) answer := by
  unfold Step.loops Step.SaysLoop
  cases s.repeatWhile with
  | none => exact eq_comm
  | some g => exact Iff.rfl

theorem isAfter_iff {id : StepId} :
    (isAfter (m := Id) ν model c id).run = true ↔ ComesAfter ν model c id := by
  unfold ComesAfter StandsAfter isAfter
  by_cases hlatest : c.latest = some id
  · rw [if_pos hlatest]
    cases model.step? id with
    | none => simp
    | some s => simp [← loops_eq_iff, hlatest]
  · simp [hlatest]

theorem isAfterAny_iff {steps : List (Step C)} :
    (isAfterAny (m := Id) ν model c steps).run = true ↔ ∃ s ∈ steps, ComesAfter ν model c s.id := by
  induction steps with
  | nil => simp [isAfterAny]
  | cons first rest ih =>
    rw [List.exists_mem_cons_iff, ← isAfter_iff, ← ih]
    rw [isAfterAny, Id.run_bind]
    cases (isAfter (m := Id) ν model c first.id).run <;> simp

theorem defaultEntry_iff {flow : Flow C} :
    (defaultEntry (m := Id) ν model c flow).run = true ↔ EntersByDefault ν model c flow := by
  unfold defaultEntry
  constructor
  · intro h
    split at h
    · rename_i hbasic
      cases hincluded : model.isIncluded flow.useCase with
      | false => exact .start hbasic hincluded (by simpa [hincluded] using h)
      | true =>
        cases hframes : c.frames with
        | nil => simp [hincluded, hframes] at h
        | cons frame rest =>
          obtain ⟨huseCase, hlatest⟩ : frame.included = flow.useCase ∧
              c.latest = some frame.includeStep := by simpa [hincluded, hframes] using h
          exact .inclusion hbasic hincluded (by rw [hframes]; rfl) huseCase hlatest
    · rename_i hbasic
      split at h
      · rename_i before hbefore
        split at h
        · rename_i last hlast
          exact .following (Bool.eq_false_iff.mpr hbasic) hbefore hlast (isAfter_iff.mp h)
        · cases h
      · cases h
  · rintro (⟨hbasic, hincluded, h⟩ | ⟨hbasic, hincluded, hframe, huseCase, h⟩ |
      ⟨hbasic, hbefore, hlast, h⟩)
    · simp [hbasic, hincluded, h]
    · obtain ⟨rest, hframes⟩ : ∃ rest, c.frames = _ :: rest := List.head?_eq_some_iff.mp hframe
      simp [hbasic, hincluded, hframes, huseCase, h]
    · simp only [hbasic, hbefore, hlast]
      exact isAfter_iff.mpr h

/-! ## One step of a chain -/

/-- What comes of the question whether the cursor stands where the step may react. -/
def standing (ν : C.Guard → Bool) (model : Model C) (c : Cursor) (budget : Nat) (s : Step C) :
    Except RunnerError Bool :=
  (stands (m := Id) ν model c budget s).run

theorem Model.StandsInFor.unique {s t t' : Step C} (h : model.StandsInFor s t)
    (h' : model.StandsInFor s t') : t = t' := by
  obtain ⟨-, name, hposition, ht⟩ := h
  obtain ⟨-, name', hposition', ht'⟩ := h'
  obtain rfl : name = name' := by simpa using hposition.symm.trans hposition'
  exact Except.ok.inj (ht.symm.trans ht')

theorem Model.standsInFor_iff {s t : Step C} : model.StandsInFor s t ↔
    ∃ flow name, model.Enters s flow ∧ flow.position = some (.insteadOf name) ∧
      model.resolve name = .ok t := by
  unfold Model.StandsInFor Model.Enters Step.isEntry
  rw [Option.isNone_iff_eq_none]
  constructor
  · rintro ⟨hentry, name, hposition, ht⟩
    obtain ⟨flow, hflow, hposition⟩ := Option.bind_eq_some_iff.mp hposition
    exact ⟨flow, name, ⟨hentry, hflow⟩, hposition, ht⟩
  · rintro ⟨flow, name, ⟨hentry, hflow⟩, hposition, ht⟩
    exact ⟨hentry, name, by rw [hflow]; exact hposition, ht⟩

theorem Model.Enters.unique {s : Step C} {flow flow' : Flow C} (h : model.Enters s flow)
    (h' : model.Enters s flow') : flow = flow' :=
  Option.some.inj (h.2.symm.trans h'.2)

theorem Defers.unique {s t t' : Step C} (h : Defers model c s t) (h' : Defers model c s t') :
    t = t' :=
  h.2.unique h'.2

/-- What can be derived for the first step of a flow. -/
theorem derivable_iff_of_enters {s : Step C} {flow : Flow C} (hpending : c.continueAt ≠ some s.id)
    (henters : model.Enters s flow) : Derivable ν model c s ↔
      match flow.position with
      | some .anytime => True
      | some (.after names) => ∃ steps, model.resolveAll names = .ok steps ∧
          ∃ named ∈ steps, ComesAfter ν model c named.id
      | some (.insteadOf name) => ∃ replaced, model.resolve name = .ok replaced ∧
          Derivable ν model c replaced
      | none =>
        flow.guard.isSome = true ∨ (flow.guard = none ∧ EntersByDefault ν model c flow) := by
  constructor
  · intro h
    cases h with
    | pending h => exact absurd h hpending
    | behind hprevious h => cases hprevious.symm.trans henters.1
    | anytime henters' hposition =>
      obtain rfl := henters.unique henters'
      rw [hposition]
      trivial
    | after henters' hposition hsteps hnamed h =>
      obtain rfl := henters.unique henters'
      rw [hposition]
      exact ⟨_, hsteps, _, hnamed, h⟩
    | insteadOf henters' hposition hreplaced h =>
      obtain rfl := henters.unique henters'
      rw [hposition]
      exact ⟨_, hreplaced, h⟩
    | guarded henters' hposition hguard =>
      obtain rfl := henters.unique henters'
      rw [hposition]
      exact .inl hguard
    | byDefault henters' hdefault h =>
      obtain rfl := henters.unique henters'
      rw [hdefault.1]
      exact .inr ⟨hdefault.2, h⟩
  · intro h
    split at h
    · rename_i hposition
      exact .anytime henters hposition
    · rename_i names hposition
      obtain ⟨steps, hsteps, named, hnamed, h⟩ := h
      exact .after henters hposition hsteps hnamed h
    · rename_i name hposition
      obtain ⟨replaced, hreplaced, h⟩ := h
      exact .insteadOf henters hposition hreplaced h
    · rename_i hposition
      rcases h with hguard | ⟨hguard, h⟩
      · exact .guarded henters hposition hguard
      · exact .byDefault henters ⟨hposition, hguard⟩ h

/-- What comes of the question for the first step of a flow. -/
theorem standing_of_enters {s : Step C} {flow : Flow C} (hpending : c.continueAt ≠ some s.id)
    (henters : model.Enters s flow) (budget : Nat) : standing ν model c budget s =
      match flow.position with
      | some .anytime => .ok true
      | some (.after names) =>
        (model.resolveAll names).map fun steps => (isAfterAny (m := Id) ν model c steps).run
      | some (.insteadOf name) => do
        let replaced ← model.resolve name
        match budget with
        | 0 => .ok false
        | budget + 1 => standing ν model c budget replaced
      | none => .ok (flow.guard.isSome || (defaultEntry (m := Id) ν model c flow).run) := by
  unfold standing
  rw [stands.eq_def]
  simp only [if_neg hpending, henters.1, henters.2]
  rcases flow.position with _ | _ | names | name
  · cases flow.guard <;> rfl
  · rfl
  · dsimp only
    cases model.resolveAll names <;> rfl
  · dsimp only
    cases model.resolve name with
    | error e => rfl
    | ok replaced => cases budget <;> rfl

theorem derivable_iff_of_previous {s : Step C} {previous : StepId}
    (hpending : c.continueAt ≠ some s.id) (hprevious : s.previous = some previous) :
    Derivable ν model c s ↔ ComesAfter ν model c previous := by
  refine ⟨fun h => ?_, .behind hprevious⟩
  have hentry {flow : Flow C} (henters : model.Enters s flow) : False := by
    cases hprevious.symm.trans henters.1
  cases h with
  | pending h => exact absurd h hpending
  | behind hprevious' h =>
    obtain rfl := Option.some.inj (hprevious.symm.trans hprevious')
    exact h
  | anytime henters => exact (hentry henters).elim
  | after henters => exact (hentry henters).elim
  | insteadOf henters => exact (hentry henters).elim
  | guarded henters => exact (hentry henters).elim
  | byDefault henters => exact (hentry henters).elim

theorem derivable_iff_of_defers {s t : Step C} (h : Defers model c s t) :
    Derivable ν model c s ↔ Derivable ν model c t := by
  obtain ⟨hpending, hstandsIn⟩ := h
  obtain ⟨flow, name, henters, hposition, ht⟩ := Model.standsInFor_iff.mp hstandsIn
  rw [derivable_iff_of_enters hpending henters, hposition]
  constructor
  · rintro ⟨t', ht', h⟩
    obtain rfl := Except.ok.inj (ht.symm.trans ht')
    exact h
  · exact fun h => ⟨t, ht, h⟩

theorem standing_of_pending {s : Step C} (h : c.continueAt = some s.id) (budget : Nat) :
    standing ν model c budget s = .ok true := by
  unfold standing
  rw [stands_of_pending h]
  rfl

theorem standing_of_previous {s : Step C} {previous : StepId}
    (hpending : c.continueAt ≠ some s.id) (hprevious : s.previous = some previous)
    (budget : Nat) :
    standing ν model c budget s = .ok (isAfter (m := Id) ν model c previous).run := by
  unfold standing
  rw [stands_of_previous hpending hprevious]
  rfl

/-- The question is handed on, if the budget allows that. -/
theorem standing_of_defers {s t : Step C} (h : Defers model c s t) (budget : Nat) :
    standing ν model c budget s =
      match budget with
      | 0 => .ok false
      | budget + 1 => standing ν model c budget t := by
  obtain ⟨hpending, hstandsIn⟩ := h
  obtain ⟨flow, name, henters, hposition, ht⟩ := Model.standsInFor_iff.mp hstandsIn
  rw [standing_of_enters hpending henters, hposition]
  simp only [ht]
  rfl

theorem standing_of_dangles {s : Step C} {name : String} (h : Dangles model c s name)
    (budget : Nat) : standing ν model c budget s = .error (.unknownStep name) := by
  obtain ⟨hpending, flow, position, henters, hposition, hname⟩ := h
  rw [standing_of_enters hpending henters, hposition]
  cases position with
  | anytime => cases hname
  | after names =>
    dsimp only
    have hmissing : model.resolveAll names = .error (.unknownStep name) :=
      Model.resolveAll_of_find? hname
    rw [hmissing]
    rfl
  | insteadOf replaced =>
    obtain rfl : name = replaced := by
      simpa [Position.names] using List.mem_of_find?_eq_some hname
    have hnone : model.stepNamed? name = none := by simpa using List.find?_some hname
    dsimp only
    rw [Model.resolve, hnone]
    rfl

/-- Where a question is neither handed on nor led to a name that no step has, it is decided by the
rules, whatever the budget. -/
theorem exists_standing (hplaced : model.Placed) {s : Step C} (hs : s ∈ model.steps)
    (hdefers : ∀ t, ¬ Defers model c s t) (hdangles : ∀ name, ¬ Dangles model c s name) :
    ∃ answer, (∀ budget, standing ν model c budget s = .ok answer) ∧
      (answer = true ↔ Derivable ν model c s) := by
  by_cases hpending : c.continueAt = some s.id
  · exact ⟨true, standing_of_pending hpending, by simp [Derivable.pending hpending]⟩
  cases hprevious : s.previous with
  | some previous =>
    exact ⟨_, standing_of_previous hpending hprevious,
      isAfter_iff.trans (derivable_iff_of_previous hpending hprevious).symm⟩
  | none =>
    obtain ⟨flow, hflow, -⟩ := hplaced.flow?_of_step hs
    have henters : model.Enters s flow := ⟨hprevious, hflow⟩
    simp only [standing_of_enters hpending henters, derivable_iff_of_enters hpending henters]
    rcases hposition : flow.position with _ | _ | names | name
    · refine ⟨_, fun _ => rfl, ?_⟩
      cases flow.guard <;> simp [defaultEntry_iff]
    · exact ⟨true, fun _ => rfl, by simp⟩
    · cases hfind : names.find? (fun name => (model.stepNamed? name).isNone) with
      | some name =>
        exact absurd ⟨hpending, flow, _, henters, hposition, hfind⟩ (hdangles name)
      | none =>
        obtain ⟨steps, hsteps⟩ := Model.exists_resolveAll hfind
        refine ⟨(isAfterAny (m := Id) ν model c steps).run, fun _ => ?_, ?_⟩
        · dsimp only
          rw [hsteps]
          rfl
        · simp [hsteps, isAfterAny_iff]
    · cases hname : model.stepNamed? name with
      | some t =>
        have ht : model.resolve name = .ok t := by rw [Model.resolve, hname]
        exact absurd ⟨hpending, Model.standsInFor_iff.mpr ⟨flow, name, henters, hposition, ht⟩⟩
          (hdefers t)
      | none =>
        refine absurd ⟨hpending, flow, _, henters, hposition, ?_⟩ (hdangles name)
        simp [Position.names, hname]

/-! ## Chains that end -/

theorem EndsAfter.unique {n n' : Nat} {s last last' : Step C} (h : EndsAfter model c n s last)
    (h' : EndsAfter model c n' s last') : n = n' := by
  induction h generalizing n' with
  | here hstays =>
    cases h' with
    | here => rfl
    | there hdefers => exact absurd hdefers (hstays _)
  | there hdefers _ ih =>
    cases h' with
    | here hstays => exact absurd hdefers (hstays _)
    | there hdefers' hends =>
      obtain rfl := hdefers.unique hdefers'
      rw [ih hends]

/-- The steps of a chain that hand the question on are all different: the chain ends at different
distances from them. -/
theorem EndsAfter.exists_path {n : Nat} {s last : Step C} (h : EndsAfter model c n s last)
    (hs : s ∈ model.steps) : ∃ path : List (Step C), path.length = n ∧ path.Nodup ∧
      ∀ t ∈ path, (t ∈ model.steps ∧ ∃ u, Defers model c t u) ∧
        ∃ k ≤ n, EndsAfter model c k t last := by
  induction h with
  | here => exact ⟨[], rfl, List.nodup_nil, by simp⟩
  | @there n s t last hdefers hends ih =>
    obtain ⟨-, -, name, -, ht⟩ := id hdefers
    obtain ⟨path, hlength, hnodup, hpath⟩ :=
      ih (Model.mem_steps_of_stepNamed? (stepNamed?_of_resolve ht))
    have hchain := hends.there hdefers
    refine ⟨s :: path, by simp [hlength], List.nodup_cons.mpr ⟨fun hmem => ?_, hnodup⟩, ?_⟩
    · obtain ⟨-, k, hk, hends'⟩ := hpath s hmem
      have := hchain.unique hends'
      omega
    · intro u hu
      rcases List.mem_cons.mp hu with rfl | hu
      · exact ⟨⟨hs, t, hdefers⟩, n + 1, Nat.le_refl _, hchain⟩
      · obtain ⟨hdefers, k, hk, hends⟩ := hpath u hu
        exact ⟨hdefers, k, by omega, hends⟩

/-- A flow has one first step. -/
theorem Model.Placed.entry_unique (hplaced : model.Placed) {s t : Step C} (hs : s ∈ model.steps)
    (ht : t ∈ model.steps) (hsentry : s.previous = none) (htentry : t.previous = none)
    (hflow : s.flow = t.flow) : s = t := by
  obtain ⟨flow, hsflow, -, -, hshead⟩ := hplaced.flow?_of_step hs
  obtain ⟨flow', htflow, -, -, hthead⟩ := hplaced.flow?_of_step ht
  obtain rfl : flow = flow' := Option.some.inj (hsflow.symm.trans (hflow ▸ htflow))
  have hids := (hshead.mp hsentry).symm.trans (hthead.mp htentry)
  exact hplaced.step_inj hs ht (Option.some.inj hids)

/-- **A chain that ends** is no longer than there are flows. -/
theorem EndsAfter.le_length (hplaced : model.Placed) {n : Nat} {s last : Step C}
    (h : EndsAfter model c n s last) (hs : s ∈ model.steps) : n ≤ model.flows.length := by
  obtain ⟨path, hlength, hnodup, hpath⟩ := h.exists_path hs
  have hentry (t : Step C) (ht : t ∈ path) :
      t ∈ model.steps ∧ t.previous = none ∧ t.flow ∈ model.flows.map (·.id) := by
    obtain ⟨⟨hmem, u, -, hstandsIn⟩, -⟩ := hpath t ht
    obtain ⟨flow, name, henters, -⟩ := Model.standsInFor_iff.mp hstandsIn
    refine ⟨hmem, henters.1, List.mem_map.mpr ⟨flow, Model.mem_flows_of_flow? henters.2, ?_⟩⟩
    exact hplaced.flow_id henters.2
  have hflows : (path.map (·.flow)).Nodup := by
    refine List.Nodup.map_on (fun t ht u hu hflow => ?_) hnodup
    obtain ⟨htmem, htentry, -⟩ := hentry t ht
    obtain ⟨humem, huentry, -⟩ := hentry u hu
    exact hplaced.entry_unique htmem humem htentry huentry hflow
  have hsub : path.map (·.flow) ⊆ model.flows.map (·.id) := by
    intro flow hflow
    obtain ⟨t, ht, rfl⟩ := List.mem_map.mp hflow
    exact (hentry t ht).2.2
  have hle := (List.subperm_of_subset hflows hsub).length_le
  simpa [hlength] using hle

/-- The end of a chain. -/
theorem EndsAfter.reaches {n : Nat} {s last : Step C} (h : EndsAfter model c n s last)
    (hs : s ∈ model.steps) : last ∈ model.steps ∧ (∀ t, ¬ Defers model c last t) ∧
      Relation.ReflTransGen (Defers model c) s last := by
  induction h with
  | here hstays => exact ⟨hs, hstays, .refl⟩
  | there hdefers _ ih =>
    obtain ⟨-, -, name, -, ht⟩ := id hdefers
    obtain ⟨hlast, hstays, hchain⟩ := ih (Model.mem_steps_of_stepNamed? (stepNamed?_of_resolve ht))
    exact ⟨hlast, hstays, .head hdefers hchain⟩

/-- A chain is followed to its end. -/
theorem standing_of_ends {n : Nat} {s last : Step C} (h : EndsAfter model c n s last)
    {budget : Nat} (hbudget : n ≤ budget) :
    ∃ rest, standing ν model c budget s = standing ν model c rest last := by
  induction h generalizing budget with
  | here => exact ⟨budget, rfl⟩
  | there hdefers _ ih =>
    obtain ⟨budget, rfl⟩ : ∃ b, budget = b + 1 := ⟨budget - 1, by omega⟩
    rw [standing_of_defers hdefers]
    exact ih (by omega)

/-- The answer of a chain that the budget does not reach the end of is no. -/
theorem standing_of_endless {s : Step C} {budget : Nat}
    (h : ∀ n last, EndsAfter model c n s last → budget < n) :
    standing ν model c budget s = .ok false := by
  induction budget generalizing s with
  | zero =>
    by_cases hdefers : ∃ t, Defers model c s t
    · obtain ⟨t, hdefers⟩ := hdefers
      exact standing_of_defers hdefers 0
    · exact absurd (h 0 s (.here (not_exists.mp hdefers))) (by omega)
  | succ budget ih =>
    by_cases hdefers : ∃ t, Defers model c s t
    · obtain ⟨t, hdefers⟩ := hdefers
      rw [standing_of_defers hdefers]
      refine ih fun n last hends => ?_
      have := h _ _ (hends.there hdefers)
      omega
    · exact absurd (h 0 s (.here (not_exists.mp hdefers))) (by omega)

theorem Dangles.not_defers {s t : Step C} {name : String} (h : Dangles model c s name) :
    ¬ Defers model c s t := by
  rintro ⟨-, hstandsIn⟩
  obtain ⟨-, flow, position, henters, hposition, hname⟩ := h
  obtain ⟨flow', name', henters', hposition', ht⟩ := Model.standsInFor_iff.mp hstandsIn
  obtain rfl := henters.unique henters'
  obtain rfl : position = .insteadOf name' := Option.some.inj (hposition.symm.trans hposition')
  obtain rfl : name = name' := by simpa [Position.names] using List.mem_of_find?_eq_some hname
  have hnone := List.find?_some hname
  rw [stepNamed?_of_resolve ht] at hnone
  cases hnone

theorem Dangles.not_derivable {s : Step C} {name : String} (h : Dangles model c s name) :
    ¬ Derivable ν model c s := by
  obtain ⟨hpending, flow, position, henters, hposition, hname⟩ := h
  rw [derivable_iff_of_enters hpending henters, hposition]
  cases position with
  | anytime => cases hname
  | after names =>
    rintro ⟨steps, hsteps, -⟩
    have hmissing : model.resolveAll names = .error (.unknownStep name) :=
      Model.resolveAll_of_find? hname
    rw [hmissing] at hsteps
    cases hsteps
  | insteadOf name' =>
    rintro ⟨t, ht, -⟩
    have hdefers : Defers model c s t :=
      ⟨hpending, Model.standsInFor_iff.mpr ⟨flow, name', henters, hposition, ht⟩⟩
    exact Dangles.not_defers ⟨hpending, flow, _, henters, hposition, hname⟩ hdefers

theorem Strands.ends {s : Step C} {name : String} (h : Strands model c s name) :
    ∃ n last, EndsAfter model c n s last := by
  obtain ⟨t, hchain, hdangles⟩ := h
  induction hchain using Relation.ReflTransGen.head_induction_on with
  | refl => exact ⟨0, t, .here fun u => hdangles.not_defers⟩
  | head hdefers _ ih =>
    obtain ⟨n, last, hends⟩ := ih
    exact ⟨n + 1, last, hends.there hdefers⟩

theorem Derivable.ends {s : Step C} (h : Derivable ν model c s) :
    ∃ n last, EndsAfter model c n s last := by
  -- Only a flow that stands in for a step hands the question on, and derives from the answer there.
  have hends {s : Step C} (h : ∀ t, ¬ model.StandsInFor s t) :
      ∃ n last, EndsAfter model c n s last :=
    ⟨0, s, .here fun t hdefers => h t hdefers.2⟩
  have hentry {s : Step C} {flow : Flow C} (henters : model.Enters s flow)
      (hposition : ∀ name, flow.position ≠ some (.insteadOf name)) :
      ∃ n last, EndsAfter model c n s last := by
    refine hends fun t hstandsIn => ?_
    obtain ⟨flow', name, henters', hposition', -⟩ := Model.standsInFor_iff.mp hstandsIn
    obtain rfl := henters.unique henters'
    exact hposition name hposition'
  induction h with
  | pending h => exact ⟨0, _, .here fun t hdefers => hdefers.1 h⟩
  | behind hprevious =>
    refine hends fun t hstandsIn => ?_
    obtain ⟨flow, name, henters, -⟩ := Model.standsInFor_iff.mp hstandsIn
    cases hprevious.symm.trans henters.1
  | anytime henters hposition => exact hentry henters fun name => by simp [hposition]
  | after henters hposition => exact hentry henters fun name => by simp [hposition]
  | @insteadOf s replaced flow name henters hposition hreplaced _ ih =>
    by_cases hpending : c.continueAt = some s.id
    · exact ⟨0, s, .here fun t hdefers => hdefers.1 hpending⟩
    · obtain ⟨n, last, hends⟩ := ih
      exact ⟨n + 1, last, .there ⟨hpending,
        Model.standsInFor_iff.mpr ⟨flow, name, henters, hposition, hreplaced⟩⟩ hends⟩
  | guarded henters hposition => exact hentry henters fun name => by simp [hposition]
  | byDefault henters hdefault => exact hentry henters fun name => by simp [hdefault.1]

end Answers

/-! ## The answer -/

section Ruled

variable (ν : C.Guard → Bool) (model : Model C) (c : Cursor)

/-- The answer is the one that the rules give for the step. -/
structure Ruled (s : Step C) (answer : Except RunnerError Bool) : Prop where
  yes : answer = .ok true ↔ Derivable ν model c s
  unknown : ∀ e, answer = .error e ↔ ∃ name, e = .unknownStep name ∧ Strands model c s name

variable {ν model c} {s t : Step C} {answer : Except RunnerError Bool}

/-- There is no third way to say no. -/
theorem Ruled.no (h : Ruled ν model c s answer) :
    answer = .ok false ↔ ¬ Derivable ν model c s ∧ ∀ name, ¬ Strands model c s name := by
  constructor
  · rintro rfl
    refine ⟨fun hderivable => ?_, fun name hstrands => ?_⟩
    · cases h.yes.mpr hderivable
    · cases (h.unknown _).mpr ⟨name, rfl, hstrands⟩
  · rintro ⟨hderivable, hstrands⟩
    match answer, h with
    | .ok true, h => exact absurd (h.yes.mp rfl) hderivable
    | .ok false, _ => rfl
    | .error e, h =>
      obtain ⟨name, -, hname⟩ := (h.unknown e).mp rfl
      exact absurd hname (hstrands name)

theorem Ruled.unique {answer' : Except RunnerError Bool} (h : Ruled ν model c s answer)
    (h' : Ruled ν model c s answer') : answer = answer' := by
  match answer, h with
  | .ok true, h => exact (h'.yes.mpr (h.yes.mp rfl)).symm
  | .ok false, h => exact (h'.no.mpr (h.no.mp rfl)).symm
  | .error e, h => exact ((h'.unknown e).mpr ((h.unknown e).mp rfl)).symm

theorem strands_iff_of_defers (h : Defers model c s t) {name : String} :
    Strands model c s name ↔ Strands model c t name := by
  constructor
  · rintro ⟨last, hchain, hdangles⟩
    rcases hchain.cases_head with rfl | ⟨t', hdefers, hchain⟩
    · exact absurd h hdangles.not_defers
    · obtain rfl := h.unique hdefers
      exact ⟨last, hchain, hdangles⟩
  · rintro ⟨last, hchain, hdangles⟩
    exact ⟨last, .head h hchain, hdangles⟩

/-- A step that hands the question on has the answer of the other one. -/
theorem Ruled.of_defers (h : Ruled ν model c t answer) (hdefers : Defers model c s t) :
    Ruled ν model c s answer where
  yes := h.yes.trans (derivable_iff_of_defers hdefers).symm
  unknown e := by
    rw [h.unknown e]
    simp only [strands_iff_of_defers hdefers]

theorem Ruled.of_chain (h : Ruled ν model c t answer)
    (hchain : Relation.ReflTransGen (Defers model c) s t) : Ruled ν model c s answer := by
  induction hchain using Relation.ReflTransGen.head_induction_on with
  | refl => exact h
  | head hdefers _ ih => exact ih.of_defers hdefers

/-- A step that hands no question on is settled by itself. -/
theorem ruled_of_not_defers (hplaced : model.Placed) (hs : s ∈ model.steps)
    (hdefers : ∀ t, ¬ Defers model c s t) (budget : Nat) :
    Ruled ν model c s (standing ν model c budget s) := by
  have hstrands {name : String} : Strands model c s name ↔ Dangles model c s name := by
    refine ⟨?_, fun h => ⟨s, .refl, h⟩⟩
    rintro ⟨t, hchain, hdangles⟩
    rcases hchain.cases_head with rfl | ⟨t, h, -⟩
    · exact hdangles
    · exact absurd h (hdefers t)
  by_cases hdangles : ∃ name, Dangles model c s name
  · obtain ⟨name, hdangles⟩ := hdangles
    have hanswer (budget : Nat) : standing ν model c budget s = .error (.unknownStep name) :=
      standing_of_dangles hdangles budget
    refine ⟨⟨fun h => ?_, fun h => ?_⟩, fun e => ⟨fun h => ?_, ?_⟩⟩
    · cases (hanswer budget).symm.trans h
    · exact absurd h hdangles.not_derivable
    · rw [hanswer] at h
      cases h
      exact ⟨name, rfl, hstrands.mpr hdangles⟩
    · rintro ⟨name', rfl, h⟩
      rw [← standing_of_dangles (hstrands.mp h) budget]
  · have hdecided : ∃ answer, (∀ budget, standing ν model c budget s = .ok answer) ∧ _ :=
      exists_standing hplaced hs hdefers (not_exists.mp hdangles)
    obtain ⟨answer, hanswer, hiff⟩ := hdecided
    rw [hanswer]
    refine ⟨by simpa using hiff, fun e => ⟨nofun, ?_⟩⟩
    rintro ⟨name, -, h⟩
    exact absurd ⟨name, hstrands.mp h⟩ hdangles

/-- **The rules give the answer**, for every budget of at least the number of flows. -/
theorem ruled_standing (hplaced : model.Placed) (hs : s ∈ model.steps) {budget : Nat}
    (hbudget : model.flows.length ≤ budget) : Ruled ν model c s (standing ν model c budget s) := by
  by_cases hends : ∃ n last, EndsAfter model c n s last
  · obtain ⟨n, last, hends⟩ := hends
    have hlength := hends.le_length hplaced hs
    obtain ⟨rest, hrest⟩ : ∃ rest, standing ν model c budget s = standing ν model c rest last :=
      standing_of_ends hends (Nat.le_trans hlength hbudget)
    obtain ⟨hlast, hstays, hchain⟩ := hends.reaches hs
    rw [hrest]
    exact (ruled_of_not_defers hplaced hlast hstays rest).of_chain hchain
  · rw [standing_of_endless fun n last h => absurd ⟨n, last, h⟩ hends]
    constructor
    · exact ⟨nofun, fun h => absurd h.ends hends⟩
    · rintro e
      refine ⟨nofun, ?_⟩
      rintro ⟨name, -, h⟩
      exact absurd h.ends hends

/-- Who stands in for another step in a circle leads back to it from wherever it leads. -/
theorem transGen_of_circle (hcircle : Relation.TransGen model.StandsInFor s s)
    (hchain : Relation.ReflTransGen model.StandsInFor s t) :
    Relation.TransGen model.StandsInFor t s := by
  induction hchain with
  | refl => exact hcircle
  | tail _ hstandsIn ih =>
    obtain ⟨t', hstandsIn', hback⟩ := Relation.TransGen.head'_iff.mp ih
    obtain rfl := hstandsIn.unique hstandsIn'
    exact Relation.TransGen.trans_right hback hcircle

/-- No step of a circle refers to a name that no step has. -/
theorem not_strands_of_circle (hcircle : Relation.TransGen model.StandsInFor s s) (name : String) :
    ¬ Strands model c s name := by
  rintro ⟨t, hchain, hdangles⟩
  have hstandsIn : Relation.ReflTransGen model.StandsInFor s t :=
    Relation.ReflTransGen.mono (fun _ _ h => h.2) s t hchain
  have hback := transGen_of_circle hcircle hstandsIn
  obtain ⟨u, hstandsIn, -⟩ := Relation.TransGen.head'_iff.mp hback
  exact hdangles.not_defers ⟨hdangles.1, hstandsIn⟩

/-- A step that a name refers to is among those that the names refer to. -/
theorem mem_of_resolveAll {names : List String} {steps : List (Step C)} {name : String}
    (h : model.resolveAll names = .ok steps) (hname : name ∈ names)
    (hs : model.resolve name = .ok s) : s ∈ steps := by
  induction names generalizing steps with
  | nil => cases hname
  | cons first rest ih =>
    unfold Model.resolveAll at h
    obtain ⟨t, ht, h⟩ := bind_eq_ok_iff.mp h
    obtain ⟨others, hothers, h⟩ := bind_eq_ok_iff.mp h
    cases h
    rcases List.mem_cons.mp hname with rfl | hname
    · obtain rfl := Except.ok.inj (ht.symm.trans hs)
      exact List.mem_cons_self
    · exact List.mem_cons_of_mem _ (ih hothers hname)

/-- What can be derived holds by the rules that do not ask whether all names are known. -/
theorem Derivable.stands (h : Derivable ν model c s) : Stands model c (ν · = ·) s := by
  induction h with
  | pending h => exact .pending h
  | behind hprevious h => exact .behind hprevious h
  | anytime henters hposition => exact .anytime henters hposition
  | after henters hposition hsteps hnamed h =>
    obtain ⟨name, hname, hresolve⟩ := exists_name_of_resolveAll hsteps hnamed
    exact .after henters hposition hname hresolve h
  | insteadOf henters hposition hreplaced _ ih => exact .insteadOf henters hposition hreplaced ih
  | guarded henters hposition hguard => exact .guarded henters hposition hguard
  | byDefault henters hdefault h =>
    cases h with
    | start hbasic hincluded h => exact .first henters hdefault hbasic hincluded h
    | inclusion hbasic hincluded hframe huseCase h =>
      exact .included henters hdefault hbasic hincluded hframe huseCase h
    | following hbasic hbefore hlast h => exact .following henters hdefault hbasic hbefore hlast h

/-- The other way round, all names have to be known. -/
theorem derivable_of_stands (h : Stands model c (ν · = ·) s)
    (hknown : ∀ name, ¬ Strands model c s name) : Derivable ν model c s := by
  induction h with
  | pending h => exact .pending h
  | behind hprevious h => exact .behind hprevious h
  | anytime henters hposition => exact .anytime henters hposition
  | @after s flow names name named henters hposition hname hnamed h =>
    by_cases hpending : c.continueAt = some s.id
    · exact .pending hpending
    cases hfind : names.find? (fun name => (model.stepNamed? name).isNone) with
    | some missing =>
      exact absurd ⟨s, .refl, hpending, flow, _, henters, hposition, hfind⟩ (hknown missing)
    | none =>
      obtain ⟨steps, hsteps⟩ := Model.exists_resolveAll hfind
      exact .after henters hposition hsteps (mem_of_resolveAll hsteps hname hnamed) h
  | @insteadOf s flow name named henters hposition hnamed _ ih =>
    by_cases hpending : c.continueAt = some s.id
    · exact .pending hpending
    have hdefers : Defers model c s named :=
      ⟨hpending, Model.standsInFor_iff.mpr ⟨flow, name, henters, hposition, hnamed⟩⟩
    refine .insteadOf henters hposition hnamed (ih fun name hstrands => ?_)
    exact hknown name ((strands_iff_of_defers hdefers).mpr hstrands)
  | guarded henters hposition hguard => exact .guarded henters hposition hguard
  | first henters hdefault hbasic hincluded h =>
    exact .byDefault henters hdefault (.start hbasic hincluded h)
  | included henters hdefault hbasic hincluded hframe huseCase h =>
    exact .byDefault henters hdefault (.inclusion hbasic hincluded hframe huseCase h)
  | following henters hdefault hbasic hbefore hlast h =>
    exact .byDefault henters hdefault (.following hbasic hbefore hlast h)

end Ruled

/-- **Positions are the least solution of their rules.** With fixed answers and a budget of at least
the number of flows, a position holds just if it can be derived; the question fails just if it leads
to a name that no step has; and otherwise the answer is no, as it is in a circle of which no step's
position can be derived. The answer is the same with every such budget, and along a chain of flows
that stand in for steps. -/
theorem stands_iff_derivable {model : Model C} (hbuilt : model.Built) (ν : C.Guard → Bool)
    (c : Cursor) {s : Step C} (hs : s ∈ model.steps) {budget : Nat}
    (hbudget : model.flows.length ≤ budget) :
    (standing ν model c budget s = .ok true ↔ Derivable ν model c s) ∧
      (∀ e, standing ν model c budget s = .error e ↔
        ∃ name, e = .unknownStep name ∧ Strands model c s name) ∧
      (standing ν model c budget s = .ok false ↔
        ¬ Derivable ν model c s ∧ ∀ name, ¬ Strands model c s name) ∧
      standing ν model c budget s = standing ν model c model.flows.length s ∧
      (∀ t, Relation.ReflTransGen (Defers model c) s t →
        standing ν model c budget s = standing ν model c budget t) ∧
      (Relation.TransGen model.StandsInFor s s →
        (∀ t, Relation.ReflTransGen model.StandsInFor s t → ¬ Derivable ν model c t) →
          standing ν model c budget s = .ok false) ∧
      (Derivable ν model c s ↔
        Stands model c (ν · = ·) s ∧ ∀ name, ¬ Strands model c s name) := by
  have hplaced := placed_of_build hbuilt
  have hruled : Ruled ν model c s _ := ruled_standing hplaced hs hbudget
  refine ⟨hruled.yes, hruled.unknown, hruled.no, ?_, fun t hchain => ?_, fun hcircle hnone => ?_,
    fun h => ⟨h.stands, fun name hstrands => ?_⟩, fun h => derivable_of_stands h.1 h.2⟩
  · exact hruled.unique (ruled_standing hplaced hs (Nat.le_refl _))
  · have ht : t ∈ model.steps := by
      rcases hchain.cases_tail with rfl | ⟨u, -, -, -, name, -, ht⟩
      · exact hs
      · exact Model.mem_steps_of_stepNamed? (stepNamed?_of_resolve ht)
    exact hruled.unique ((ruled_standing hplaced ht hbudget).of_chain hchain)
  · exact hruled.no.mpr ⟨hnone s .refl, not_strands_of_circle hcircle⟩
  · cases (hruled.yes.mpr h).symm.trans ((hruled.unknown _).mpr ⟨name, rfl, hstrands⟩)

namespace Inn

theorem built : application.Built :=
  fun _ => ⟨spec, (spec.build_eq_ok_iff _).mpr ⟨rfl, rfl⟩⟩

/-- The step that is declared at a place. -/
def stepAt (i : Fin 16) : Step (code signature) :=
  (application.model ()).steps.get (i.cast (by decide))

theorem stepAt_mem (i : Fin 16) : stepAt i ∈ (application.model ()).steps :=
  List.get_mem _ _

end Inn

/-- After the order, with nobody hungry, the last bowl may be served, as soup may be instead of the
dish; the hen and the egg wait for one another; and the dessert waits for a coffee that nobody
brings. -/
theorem Inn.stands_iff_derivable_ordered :
    let model := application.model ()
    let c : Cursor := { latest := some ⟨0⟩ }
    model.flows.length ≤ 12 ∧
      Derivable (fun _ => false) model c (stepAt 4) ∧
      Relation.ReflTransGen (Defers model c) (stepAt 4) (stepAt 1) ∧
      standing (fun _ => false) model c 12 (stepAt 4) =
        standing (fun _ => false) model c 12 (stepAt 1) ∧
      (¬ Derivable (fun _ => false) model c (stepAt 5) ∧
        ∀ name, ¬ Strands model c (stepAt 5) name) ∧
      ∃ name, RunnerError.unknownStep "Bring coffee" = .unknownStep name ∧
        Strands model c (stepAt 7) name := by
  intro model c
  have hlength : model.flows.length ≤ 12 := by decide
  have hbowl : Defers model c (stepAt 4) (stepAt 3) := ⟨nofun, rfl, "Serve soup", rfl, rfl⟩
  have hsoup : Defers model c (stepAt 3) (stepAt 1) := ⟨nofun, rfl, "Serve", rfl, rfl⟩
  have hchain : Relation.ReflTransGen (Defers model c) (stepAt 4) (stepAt 1) :=
    .head hbowl (.single hsoup)
  obtain ⟨hyes, -, -, -, hfollowed, -⟩ :=
    stands_iff_derivable (built ()) (fun _ => false) c (stepAt_mem 4) hlength
  obtain ⟨-, -, hno, -⟩ :=
    stands_iff_derivable (built ()) (fun _ => false) c (stepAt_mem 5) hlength
  obtain ⟨-, hunknown, -⟩ :=
    stands_iff_derivable (built ()) (fun _ => false) c (stepAt_mem 7) hlength
  refine ⟨hlength, hyes.mp rfl, hchain, hfollowed _ hchain, hno.mp rfl, (hunknown _).mp rfl⟩

end UseCaseEngine
