import UseCaseEngine.Proofs.Asking

/-!
# Why a step can be reached

A step is reached because it repeats, or because of one of the rules of positions: it was made the
next one, it comes after the latest step, or it enters its flow where that may be entered. `Stands`
lists the rules, for whatever guards are said to answer, and `Step.Reached` what is asked besides.

Out of scope: who asks, and what is answered. The same rules hold for guards that are functions and
for guards that change the world.

* `Program.Gives`: what a program may come to if certain answers may be given.
* **`reached_of_gives`**: a step is found to be reachable only by these rules.
-/

namespace UseCaseEngine

/-! ## Answers that may be given -/

section Gives

variable {I : Interface} {α β ε : Type} {said : (q : I.Request) → I.Answer q → Prop}

/-- The program comes to the value if it is given some answers of those that are said. -/
def Program.Gives (said : (q : I.Request) → I.Answer q → Prop) : Program I α → α → Prop
  | .done a, b => a = b
  | .ask q next, b => ∃ answer, said q answer ∧ (next answer).Gives said b

@[simp] theorem gives_pure {a b : α} : (pure a : Program I α).Gives said b ↔ a = b := Iff.rfl

@[simp] theorem gives_bind {p : Program I α} {f : α → Program I β} {b : β} :
    (p >>= f).Gives said b ↔ ∃ a, p.Gives said a ∧ (f a).Gives said b := by
  induction p with
  | done a => exact ⟨fun h => ⟨a, rfl, h⟩, fun ⟨_, rfl, h⟩ => h⟩
  | ask q next ih =>
    constructor
    · rintro ⟨answer, hsaid, h⟩
      obtain ⟨a, ha, hb⟩ := (ih answer).mp h
      exact ⟨a, ⟨answer, hsaid, ha⟩, hb⟩
    · rintro ⟨a, ⟨answer, hsaid, ha⟩, hb⟩
      exact ⟨answer, hsaid, (ih answer).mpr ⟨a, ha, hb⟩⟩

@[simp] theorem gives_map {p : Program I α} {f : α → β} {b : β} :
    (f <$> p).Gives said b ↔ ∃ a, p.Gives said a ∧ f a = b := by
  rw [map_eq_pure_bind, gives_bind]
  exact Iff.rfl

theorem gives_exceptBind {x : ExceptT ε (Program I) α} {f : α → ExceptT ε (Program I) β} {b : β} :
    (x >>= f).run.Gives said (.ok b) ↔
      ∃ a, x.run.Gives said (.ok a) ∧ (f a).run.Gives said (.ok b) := by
  rw [ExceptT.run_bind, gives_bind]
  constructor
  · rintro ⟨a | a, ha, hb⟩
    · cases hb
    · exact ⟨a, ha, hb⟩
  · exact fun ⟨a, ha, hb⟩ => ⟨.ok a, ha, hb⟩

theorem gives_lift {p : Program I α} {b : α} :
    (ExceptT.lift p : ExceptT ε (Program I) α).run.Gives said (.ok b) ↔ p.Gives said b := by
  rw [ExceptT.run_lift, gives_map]
  constructor
  · rintro ⟨a, ha, hb⟩
    cases hb
    exact ha
  · exact fun h => ⟨b, h, rfl⟩

theorem gives_liftExcept {x : Except ε α} {b : α} :
    (liftM x : ExceptT ε (Program I) α).run.Gives said (.ok b) ↔ x = .ok b := Iff.rfl

theorem gives_exceptPure {a b : α} :
    (pure a : ExceptT ε (Program I) α).run.Gives said (.ok b) ↔ a = b :=
  ⟨Except.ok.inj, congrArg Except.ok⟩

end Gives

variable {C : Code}

/-! ## The rules -/

section Rules

variable (model : Model C) (c : Cursor) (said : C.Guard → Bool → Prop)

/-- What the step's condition for repeating is said to answer. -/
def Step.SaysLoop (step : Step C) (answer : Bool) : Prop :=
  match step.repeatWhile with
  | none => answer = false
  | some g => said g answer

/-- The run stands on the step, and the step is done repeating. -/
def StandsAfter (id : StepId) : Prop :=
  c.latest = some id ∧ ∃ step, model.step? id = some step ∧ step.SaysLoop said false

/-- The step is the first one of the flow. -/
def Model.Enters (step : Step C) (flow : Flow C) : Prop :=
  step.previous = none ∧ model.flow? step.flow = some flow

/-- The flow says nothing of where it can be entered. -/
def Flow.IsDefault (flow : Flow C) : Prop := flow.position = none ∧ flow.guard = none

/-- The cursor stands where the step may react. -/
inductive Stands : Step C → Prop where
  /-- A continuation made it the next one. -/
  | pending {step : Step C} (h : c.continueAt = some step.id) : Stands step
  /-- The one before it is the latest. -/
  | behind {step : Step C} {previous : StepId} (hprevious : step.previous = some previous)
      (h : StandsAfter model c said previous) : Stands step
  | anytime {step : Step C} {flow : Flow C} (henters : model.Enters step flow)
      (hposition : flow.position = some .anytime) : Stands step
  /-- One of the named steps is the latest. -/
  | after {step : Step C} {flow : Flow C} {names : List String} {name : String} {named : Step C}
      (henters : model.Enters step flow) (hposition : flow.position = some (.after names))
      (hname : name ∈ names) (hnamed : model.resolve name = .ok named)
      (h : StandsAfter model c said named.id) : Stands step
  /-- The named step may react there. -/
  | insteadOf {step : Step C} {flow : Flow C} {name : String} {named : Step C}
      (henters : model.Enters step flow) (hposition : flow.position = some (.insteadOf name))
      (hnamed : model.resolve name = .ok named) (h : Stands named) : Stands step
  | guarded {step : Step C} {flow : Flow C} (henters : model.Enters step flow)
      (hposition : flow.position = none) (hguard : flow.guard.isSome = true) : Stands step
  /-- The run has just started. -/
  | first {step : Step C} {flow : Flow C} (henters : model.Enters step flow)
      (hdefault : flow.IsDefault) (hbasic : model.isBasicFlow flow = true)
      (hincluded : model.isIncluded flow.useCase = false) (h : c.latest = none) : Stands step
  /-- The flow's use case has just been included. -/
  | included {step : Step C} {flow : Flow C} {frame : Frame} (henters : model.Enters step flow)
      (hdefault : flow.IsDefault) (hbasic : model.isBasicFlow flow = true)
      (hincluded : model.isIncluded flow.useCase = true) (hframe : c.frames.head? = some frame)
      (huseCase : frame.included = flow.useCase) (h : c.latest = some frame.includeStep) :
      Stands step
  /-- The last step of the flow before it is the latest. -/
  | following {step : Step C} {flow before : Flow C} {last : StepId}
      (henters : model.Enters step flow) (hdefault : flow.IsDefault)
      (hbasic : model.isBasicFlow flow = false)
      (hbefore : (model.precedingFlow? flow).bind model.flow? = some before)
      (hlast : before.steps.getLast? = some last) (h : StandsAfter model c said last) : Stands step

/-- The step can be reached: it repeats, or it may react there and may enter its flow; and its own
conditions hold. -/
structure Step.Reached (step : Step C) : Prop where
  position : (c.latest = some step.id ∧ step.SaysLoop said true) ∨
    (Stands model c said step ∧ ∀ flow, model.Enters step flow → ∀ g, flow.guard = some g →
      said g true)
  guard : ∀ g, step.guard = some g → said g true
  repeatWhile : ∀ g, step.repeatWhile = some g → said g true

end Rules

/-- Only a step with a condition for repeating is said to repeat. -/
theorem Step.SaysLoop.condition {said : C.Guard → Bool → Prop} {step : Step C}
    (h : step.SaysLoop said true) : ∃ g, step.repeatWhile = some g ∧ said g true := by
  unfold Step.SaysLoop at h
  cases hrepeat : step.repeatWhile with
  | none =>
    rw [hrepeat] at h
    cases h
  | some g =>
    rw [hrepeat] at h
    exact ⟨g, rfl, h⟩

/-! ## What is computed obeys the rules -/

section Computed

variable {model : Model C} {c : Cursor} {said : C.Guard → Bool → Prop}

theorem gives_ask {g : C.Guard} {b : Bool} :
    (ask g).Gives (I := guards C) said b ↔ said g b :=
  ⟨fun ⟨_, hsaid, h⟩ => h ▸ hsaid, fun h => ⟨b, h, rfl⟩⟩

theorem gives_holds {guard : Option C.Guard} :
    (holds ask guard).Gives (I := guards C) said true ↔ ∀ g, guard = some g → said g true := by
  cases guard with
  | none => simp [holds]
  | some g =>
    refine gives_ask.trans ⟨fun h g' hg => Option.some.inj hg ▸ h, fun h => h g rfl⟩

theorem gives_loops {step : Step C} {b : Bool} :
    (step.loops ask).Gives (I := guards C) said b ↔ step.SaysLoop said b := by
  unfold Step.loops Step.SaysLoop
  cases step.repeatWhile with
  | none => exact gives_pure.trans eq_comm
  | some g => exact gives_ask

theorem gives_isAfter {id : StepId} :
    (isAfter ask model c id).Gives (I := guards C) said true ↔ StandsAfter model c said id := by
  unfold isAfter StandsAfter
  split
  · rename_i hlatest
    cases model.step? id with
    | none => simp
    | some step => simp [gives_loops, hlatest]
  · rename_i hlatest
    simp [hlatest]

theorem gives_isAfterAny {steps : List (Step C)} :
    (isAfterAny ask model c steps).Gives (I := guards C) said true →
      ∃ step ∈ steps, StandsAfter model c said step.id := by
  intro h
  induction steps with
  | nil => cases h
  | cons step rest ih =>
    unfold isAfterAny at h
    obtain ⟨after, hafter, hrest⟩ := gives_bind.mp h
    cases after with
    | true => exact ⟨step, List.mem_cons_self, gives_isAfter.mp hafter⟩
    | false =>
      obtain ⟨step, hstep, h⟩ := ih hrest
      exact ⟨step, List.mem_cons_of_mem _ hstep, h⟩

theorem stands_of_defaultEntry {step : Step C} {flow : Flow C} (henters : model.Enters step flow)
    (hdefault : flow.IsDefault)
    (h : (defaultEntry ask model c flow).Gives (I := guards C) said true) :
    Stands model c said step := by
  unfold defaultEntry at h
  split at h
  · rename_i hbasic
    replace h := gives_pure.mp h
    split at h
    · rename_i hincluded
      split at h
      · rename_i frame rest hframes
        simp only [Bool.and_eq_true, beq_iff_eq] at h
        exact .included henters hdefault hbasic hincluded (hframes ▸ rfl) h.1 h.2
      · cases h
    · rename_i hincluded
      exact .first henters hdefault hbasic (Bool.eq_false_iff.mpr hincluded)
        (Option.isNone_iff_eq_none.mp h)
  · rename_i hbasic
    split at h
    · rename_i before hbefore
      split at h
      · rename_i last hlast
        exact .following henters hdefault (Bool.eq_false_iff.mpr hbasic) hbefore hlast
          (gives_isAfter.mp h)
      · cases h
    · cases h

/-- Each of the steps is one that a name refers to. -/
theorem exists_name_of_resolveAll {names : List String} {steps : List (Step C)}
    (h : model.resolveAll names = .ok steps) {step : Step C} (hstep : step ∈ steps) :
    ∃ name ∈ names, model.resolve name = .ok step := by
  induction names generalizing steps with
  | nil =>
    cases h
    cases hstep
  | cons name rest ih =>
    unfold Model.resolveAll at h
    cases hfirst : model.resolve name with
    | error e =>
      rw [hfirst] at h
      cases h
    | ok first =>
      cases hothers : model.resolveAll rest with
      | error e =>
        rw [hfirst, hothers] at h
        cases h
      | ok others =>
        rw [hfirst, hothers] at h
        cases h
        rcases List.mem_cons.mp hstep with rfl | hstep
        · exact ⟨name, List.mem_cons_self, hfirst⟩
        · obtain ⟨name', hname', hresolve⟩ := ih hothers hstep
          exact ⟨name', List.mem_cons_of_mem _ hname', hresolve⟩

/-- **A position holds only by the rules.** -/
theorem stands_of_gives {budget : Nat} {step : Step C}
    (h : (stands ask model c budget step).run.Gives (I := guards C) said (.ok true)) :
    Stands model c said step := by
  induction budget using Nat.strongRecOn generalizing step with
  | ind budget ih =>
    unfold stands at h
    split at h
    · rename_i hpending
      exact .pending hpending
    · split at h
      · rename_i previous hprevious
        exact .behind hprevious (gives_isAfter.mp (gives_lift.mp h))
      · rename_i hprevious
        split at h
        · cases gives_exceptPure.mp h
        · rename_i flow hflow
          have henters : model.Enters step flow := ⟨hprevious, hflow⟩
          split at h
          · rename_i hposition
            exact .anytime henters hposition
          · rename_i names hposition
            obtain ⟨steps, hsteps, hafter⟩ := gives_exceptBind.mp h
            obtain ⟨named, hnamed, hafter⟩ := gives_isAfterAny (gives_lift.mp hafter)
            obtain ⟨name, hname, hresolve⟩ :=
              exists_name_of_resolveAll (gives_liftExcept.mp hsteps) hnamed
            exact .after henters hposition hname hresolve hafter
          · rename_i name hposition
            obtain ⟨named, hnamed, hstands⟩ := gives_exceptBind.mp h
            cases budget with
            | zero => cases gives_exceptPure.mp hstands
            | succ budget =>
              exact .insteadOf henters hposition (gives_liftExcept.mp hnamed)
                (ih budget (Nat.lt_succ_self budget) hstands)
          · rename_i hposition
            split at h
            · rename_i hguard
              exact .guarded henters hposition hguard
            · rename_i hguard
              exact stands_of_defaultEntry henters
                ⟨hposition, Option.not_isSome_iff_eq_none.mp hguard⟩ (gives_lift.mp h)

theorem entry_of_gives {step : Step C}
    (h : (entryGuardHolds ask model step).Gives (I := guards C) said true) {flow : Flow C}
    (henters : model.Enters step flow) (g : C.Guard) (hg : flow.guard = some g) : said g true := by
  unfold entryGuardHolds Step.isEntry at h
  rw [henters.1, henters.2] at h
  exact gives_holds.mp h g hg

/-- What can be reached can be reached by the rules. -/
theorem reached_of_gives {step : Step C}
    (h : (isReachable ask model c step).run.Gives (I := guards C) said (.ok true)) :
    step.Reached model c said := by
  have hwilling (h : (isWilling ask step).Gives (I := guards C) said true) :
      (∀ g, step.guard = some g → said g true) ∧
        ∀ g, step.repeatWhile = some g → said g true := by
    unfold isWilling at h
    obtain ⟨guard, hguard, hrest⟩ := gives_bind.mp h
    cases guard with
    | true => exact ⟨gives_holds.mp hguard, gives_holds.mp hrest⟩
    | false => cases hrest
  unfold isReachable at h
  obtain ⟨repeating, hrepeating, h⟩ := gives_exceptBind.mp h
  cases repeating with
  | true =>
    obtain ⟨hguard, hrepeat⟩ := hwilling (gives_lift.mp h)
    refine ⟨.inl ?_, hguard, hrepeat⟩
    replace hrepeating := gives_lift.mp hrepeating
    unfold isRepeating at hrepeating
    split at hrepeating
    · rename_i hlatest
      exact ⟨hlatest, gives_loops.mp hrepeating⟩
    · cases hrepeating
  | false =>
    obtain ⟨offered, hoffered, h⟩ := gives_exceptBind.mp h
    cases offered with
    | true =>
      obtain ⟨hguard, hrepeat⟩ := hwilling (gives_lift.mp h)
      refine ⟨.inr ?_, hguard, hrepeat⟩
      unfold isOffered at hoffered
      obtain ⟨standing, hstanding, hentry⟩ := gives_exceptBind.mp hoffered
      cases standing with
      | true =>
        exact ⟨stands_of_gives hstanding, fun flow henters =>
          entry_of_gives (gives_lift.mp hentry) henters⟩
      | false => cases gives_exceptPure.mp hentry
    | false => cases gives_exceptPure.mp h

end Computed

end UseCaseEngine
