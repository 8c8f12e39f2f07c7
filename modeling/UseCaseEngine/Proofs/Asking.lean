import UseCaseEngine.Program
import UseCaseEngine.Run.Candidates

/-!
# Resolution as a program

Everything that asks guards is written for any monad. It is the same in each of them: it is one
program that asks for guards and nothing else, run with the monad's way to evaluate them. So what
holds of all such programs holds of settling (`settle`), of positions (`step_holds`) and of
resolution (`candidates`, `resolve`).

* `run_settle`, `run_apply`: moving the cursor is running a program.
* `hoist_resolve`: so is resolution.
* `candidates_returns`: the candidates are steps of the model that take part, are open to the actor
  and expect the message.
* `resolve_raises`: resolution fails only because a step is unknown or several are left.
-/

namespace UseCaseEngine

variable {C : Code}

/-- What resolution asks for: whether guards hold. -/
abbrev guards (C : Code) : Interface := ⟨C.Guard, fun _ => Bool⟩

/-- Asks whether a guard holds. -/
def ask (g : C.Guard) : Program (guards C) Bool := .request (I := guards C) g

section Run

variable {I : Interface} {m : Type → Type} [Monad m] {α β ε : Type}

@[simp] theorem Program.run_pure (handle : (q : I.Request) → m (I.Answer q)) (a : α) :
    (pure a : Program I α).run handle = pure a := rfl

/-- Runs a program that may fail. -/
def hoist (handle : (q : I.Request) → m (I.Answer q)) (x : ExceptT ε (Program I) α) :
    ExceptT ε m α :=
  ExceptT.mk (x.run.run handle)

variable [LawfulMonad m] (handle : (q : I.Request) → m (I.Answer q))

@[simp] theorem Program.run_andThen (p : Program I α) (f : α → Program I β) :
    (p >>= f).run handle = p.run handle >>= fun a => (f a).run handle :=
  Program.run_bind handle p f

@[simp] theorem Program.run_map (p : Program I α) (f : α → β) :
    (f <$> p).run handle = f <$> p.run handle := by
  rw [map_eq_pure_bind, map_eq_pure_bind, Program.run_andThen]
  rfl

@[simp] theorem hoist_lift (p : Program I α) :
    hoist handle (ExceptT.lift p : ExceptT ε (Program I) α) = ExceptT.lift (p.run handle) := by
  apply ExceptT.ext
  simp only [hoist, ExceptT.run_mk, ExceptT.run_lift, Program.run_map]

@[simp] theorem hoist_bind (x : ExceptT ε (Program I) α) (f : α → ExceptT ε (Program I) β) :
    hoist handle (x >>= f) = hoist handle x >>= fun a => hoist handle (f a) := by
  apply ExceptT.ext
  simp only [hoist, ExceptT.run_mk, ExceptT.run_bind, Program.run_andThen]
  congr 1
  funext a
  cases a <;> rfl

end Run

section Guards

variable {m : Type → Type} [Monad m] [LawfulMonad m] (eval : C.Guard → m Bool)

@[simp] theorem run_ask (g : C.Guard) : (ask g).run (I := guards C) eval = eval g :=
  Program.run_request (I := guards C) eval g

theorem run_holds (g : Option C.Guard) :
    (holds ask g).run (I := guards C) eval = holds eval g := by
  cases g <;> simp [holds]

theorem run_loops (s : Step C) : (s.loops ask).run (I := guards C) eval = s.loops eval := by
  unfold Step.loops
  cases s.repeatWhile <;> simp

/-! ## Moving the cursor -/

theorem run_settle (model : Model C) (finished : Step C) (frames : List Frame) :
    (settle ask model finished frames).run (I := guards C) eval =
      settle eval model finished frames := by
  induction frames generalizing finished with
  | nil => rfl
  | cons frame rest ih =>
    unfold settle
    split
    · rw [Program.run_andThen, run_loops]
      congr 1
      funext loops
      cases loops
      · cases model.step? frame.includeStep with
        | none => rfl
        | some step => exact ih step
      · rfl
    · rfl

theorem run_apply (model : Model C) (here : Cursor) (step : Step C) :
    (here.apply ask model step).run (I := guards C) eval = here.apply eval model step := by
  unfold Cursor.apply
  cases step.reaction with
  | idle => simp only [Program.run_andThen, run_settle]; rfl
  | function code => simp only [Program.run_andThen, run_settle]; rfl
  | includeUseCase name => dsimp only; split <;> rfl
  | continueAt name => dsimp only; split <;> rfl
  | continueAfter name => dsimp only; split <;> rfl

/-! ## Positions and resolution -/

variable (model : Model C) (c : Cursor)

theorem run_isAfter (id : StepId) :
    (isAfter ask model c id).run (I := guards C) eval = isAfter eval model c id := by
  unfold isAfter
  split
  · split
    · simp [run_loops]
    · rfl
  · rfl

theorem run_isAfterAny (steps : List (Step C)) :
    (isAfterAny ask model c steps).run (I := guards C) eval = isAfterAny eval model c steps := by
  induction steps with
  | nil => rfl
  | cons step rest ih =>
    unfold isAfterAny
    rw [Program.run_andThen, run_isAfter]
    congr 1
    funext isAfter
    cases isAfter
    · exact ih
    · rfl

theorem run_isRepeating (step : Step C) :
    (isRepeating ask c step).run (I := guards C) eval = isRepeating eval c step := by
  unfold isRepeating
  split
  · exact run_loops eval step
  · rfl

theorem run_defaultEntry (flow : Flow C) :
    (defaultEntry ask model c flow).run (I := guards C) eval = defaultEntry eval model c flow := by
  unfold defaultEntry
  split
  · rfl
  · split
    · split
      · exact run_isAfter eval model c _
      · rfl
    · rfl

theorem hoist_stands (budget : Nat) (step : Step C) :
    hoist (I := guards C) eval (stands ask model c budget step) =
      stands eval model c budget step := by
  induction budget using Nat.strongRecOn generalizing step with
  | ind budget ih =>
    unfold stands
    split
    · rfl
    cases step.previous with
    | some previous => simp [run_isAfter]
    | none =>
      cases model.flow? step.flow with
      | none => rfl
      | some flow =>
        dsimp only
        rcases flow.position with _ | _ | names | name
        · dsimp only
          split
          · rfl
          · simp [run_defaultEntry]
        · rfl
        · simp only [hoist_bind, hoist_lift, run_isAfterAny]
          rfl
        · rw [hoist_bind]
          congr 1
          funext replaced
          cases budget with
          | zero => rfl
          | succ budget => exact ih budget (Nat.lt_succ_self budget) replaced

theorem run_entryGuardHolds (step : Step C) :
    (entryGuardHolds ask model step).run (I := guards C) eval =
      entryGuardHolds eval model step := by
  unfold entryGuardHolds
  split
  · split
    · exact run_holds eval _
    · rfl
  · rfl

theorem run_isWilling (step : Step C) :
    (isWilling ask step).run (I := guards C) eval = isWilling eval step := by
  unfold isWilling
  rw [Program.run_andThen, run_holds]
  congr 1
  funext guard
  cases guard
  · rfl
  · exact run_holds eval _

theorem hoist_isOffered (step : Step C) :
    hoist (I := guards C) eval (isOffered ask model c step) = isOffered eval model c step := by
  unfold isOffered
  rw [hoist_bind, hoist_stands]
  congr 1
  funext standing
  cases standing
  · rfl
  · simp [run_entryGuardHolds]

theorem hoist_isReachable (step : Step C) :
    hoist (I := guards C) eval (isReachable ask model c step) = isReachable eval model c step := by
  unfold isReachable
  rw [hoist_bind, hoist_lift, run_isRepeating]
  congr 1
  funext repeating
  cases repeating
  · simp only [Bool.false_eq_true, ↓reduceIte]
    rw [hoist_bind, hoist_isOffered]
    congr 1
    funext offered
    cases offered
    · rfl
    · simp [run_isWilling]
  · simp [run_isWilling]

theorem hoist_reachable (actor : String) (type : MessageType) (scope : Scope)
    (steps : List (Step C)) :
    hoist (I := guards C) eval (reachable ask model c actor type scope steps) =
      reachable eval model c actor type scope steps := by
  induction steps with
  | nil => rfl
  | cons step rest ih =>
    unfold reachable
    split
    · rw [hoist_bind, hoist_isReachable]
      congr 1
      funext reaches
      cases reaches
      · exact ih
      · simp only [↓reduceIte, hoist_bind, ih]
        rfl
    · exact ih

theorem hoist_candidates (actor : String) (type : MessageType) (scope : Scope) :
    hoist (I := guards C) eval (candidates ask model c actor type scope) =
      candidates eval model c actor type scope := by
  unfold candidates
  simp only [hoist_bind, hoist_reachable]
  rfl

theorem hoist_resolve (actor : String) (type : MessageType) (scope : Scope) :
    hoist (I := guards C) eval (resolve ask model c actor type scope) =
      resolve eval model c actor type scope := by
  unfold resolve
  rw [hoist_bind, hoist_candidates]
  congr 1
  funext found
  split <;> rfl

end Guards

/-! ## What can come out of a program -/

section Yields

variable {I : Interface} {α β ε : Type}

/-- Whatever the answers, the program comes to a value with the property. -/
def Program.Yields (P : α → Prop) : Program I α → Prop
  | .done a => P a
  | .ask _ next => ∀ answer, (next answer).Yields P

theorem Program.yields_of_forall {P : α → Prop} (h : ∀ a, P a) (p : Program I α) :
    p.Yields P := by
  induction p with
  | done a => exact h a
  | ask q next ih => exact ih

theorem Program.Yields.bind {P : α → Prop} {Q : β → Prop} {p : Program I α}
    {f : α → Program I β} (hp : p.Yields P) (hf : ∀ a, P a → (f a).Yields Q) :
    (p >>= f).Yields Q := by
  induction p with
  | done a => exact hf a hp
  | ask q next ih => exact fun answer => ih answer (hp answer)

theorem Program.Yields.mono {P Q : α → Prop} {p : Program I α} (hp : p.Yields P)
    (h : ∀ a, P a → Q a) : p.Yields Q := by
  induction p with
  | done a => exact h a hp
  | ask q next ih => exact fun answer => ih answer (hp answer)

theorem Program.yields_true (p : Program I α) : p.Yields fun _ => True := by
  induction p with
  | done a => trivial
  | ask q next ih => exact ih

/-- Whatever the answers, a value that the program returns has the property. -/
def Returns (P : α → Prop) (x : ExceptT ε (Program I) α) : Prop :=
  x.run.Yields fun r => ∀ a, r = .ok a → P a

theorem returns_pure {P : α → Prop} {a : α} (h : P a) :
    Returns P (pure a : ExceptT ε (Program I) α) := by
  rintro _ ⟨⟩
  exact h

theorem returns_true (x : ExceptT ε (Program I) α) : Returns (fun _ => True) x :=
  (Program.yields_true x.run).mono fun _ _ _ _ => trivial

theorem Returns.bind {P : α → Prop} {Q : β → Prop} {x : ExceptT ε (Program I) α}
    {f : α → ExceptT ε (Program I) β} (hx : Returns P x) (hf : ∀ a, P a → Returns Q (f a)) :
    Returns Q (x >>= f) := by
  unfold Returns
  rw [ExceptT.run_bind]
  refine Program.Yields.bind hx fun r hr => ?_
  cases r with
  | ok a => exact hf a (hr a rfl)
  | error e => rintro _ ⟨⟩

/-- Whatever the answers, an error that the program raises has the property. -/
def Raises (P : ε → Prop) (x : ExceptT ε (Program I) α) : Prop :=
  x.run.Yields fun r => ∀ e, r = .error e → P e

section Raises

variable {P : ε → Prop}

theorem raises_pure (a : α) : Raises P (pure a : ExceptT ε (Program I) α) := by
  rintro _ ⟨⟩

theorem raises_lift (p : Program I α) : Raises P (ExceptT.lift p : ExceptT ε (Program I) α) :=
  Program.Yields.bind (Program.yields_true p) fun _ _ _ => nofun

theorem raises_liftM_except {x : Except ε α} (h : ∀ e, x = .error e → P e) :
    Raises P (liftM x : ExceptT ε (Program I) α) := h

theorem raises_throw {e : ε} (h : P e) : Raises P (throw e : ExceptT ε (Program I) α) := by
  rintro _ ⟨⟩
  exact h

theorem Raises.bind {x : ExceptT ε (Program I) α} {f : α → ExceptT ε (Program I) β}
    (hx : Raises P x) (hf : ∀ a, Raises P (f a)) : Raises P (x >>= f) := by
  unfold Raises
  rw [ExceptT.run_bind]
  refine Program.Yields.bind hx fun r hr => ?_
  cases r with
  | ok a => exact hf a
  | error e =>
    rintro _ ⟨⟩
    exact hr e rfl

theorem Raises.mono {Q : ε → Prop} {x : ExceptT ε (Program I) α} (hx : Raises P x)
    (h : ∀ e, P e → Q e) : Raises Q x :=
  Program.Yields.mono hx fun _ hr e he => h e (hr e he)

end Raises

end Yields

section Resolved

variable (model : Model C) (c : Cursor) (actor : String) (type : MessageType) (scope : Scope)

/-- What a step must be, besides reachable, to be a candidate. -/
def Step.Eligible (step : Step C) : Prop :=
  step ∈ model.steps ∧ scope.admits c step = true ∧ step.isOpenTo actor = true ∧
    step.expects type = true

theorem reachable_returns {steps : List (Step C)} (hsub : steps ⊆ model.steps) :
    Returns (fun found => ∀ step ∈ found, step.Eligible model c actor type scope)
      (reachable ask model c actor type scope steps) := by
  induction steps with
  | nil => exact returns_pure fun step h => absurd h List.not_mem_nil
  | cons step rest ih =>
    obtain ⟨hstep, hrest⟩ := List.cons_subset.mp hsub
    unfold reachable
    split
    · rename_i hfits
      simp only [Bool.and_eq_true] at hfits
      refine (returns_true _).bind fun reaches _ => ?_
      cases reaches
      · exact ih hrest
      · refine (ih hrest).bind fun found hfound => returns_pure ?_
        intro s hs
        rcases List.mem_cons.mp hs with rfl | hs
        · exact ⟨hstep, hfits.1.1, hfits.1.2, hfits.2⟩
        · exact hfound s hs
    · exact ih hrest

theorem candidates_returns :
    Returns (fun found => ∀ step ∈ found, step.Eligible model c actor type scope)
      (candidates ask model c actor type scope) := by
  unfold candidates
  have hreachable := reachable_returns model c actor type scope (List.Subset.refl _)
  refine hreachable.bind fun found hfound => ?_
  refine (returns_true _).bind fun replaced _ => returns_pure ?_
  exact fun step hstep => hfound step (List.mem_filter.mp hstep).1

end Resolved

/-! ## What resolution fails for -/

/-- The names that a position refers to. -/
def Position.names : Position → List String
  | .anytime => []
  | .after names => names
  | .insteadOf name => [name]

section Failing

variable (model : Model C)

/-- The error blames a name that no step of the model has. -/
def Model.Misses (e : RunnerError) : Prop :=
  ∃ name, model.stepNamed? name = none ∧ e = .unknownStep name

/-- The error blames a name that the position of some flow refers to, and that no step of the model
has. -/
def Model.Lacks (e : RunnerError) : Prop :=
  ∃ id flow position name, model.flow? id = some flow ∧ flow.position = some position ∧
    name ∈ position.names ∧ model.stepNamed? name = none ∧ e = .unknownStep name

/-- The error is one of looking for a step that takes a message of the type. -/
inductive Model.FailsToResolve (type : MessageType) : RunnerError → Prop where
  | unknown {e : RunnerError} (h : model.Misses e) : FailsToResolve type e
  | ambiguous {steps : List String} (h : 2 ≤ steps.length) :
      FailsToResolve type (.ambiguousReaction type.name steps)

variable {model}

theorem Model.Lacks.misses {e : RunnerError} (h : model.Lacks e) : model.Misses e := by
  obtain ⟨-, -, -, name, -, -, -, hnone, rfl⟩ := h
  exact ⟨name, hnone, rfl⟩

theorem misses_of_resolve {name : String} {e : RunnerError} (h : model.resolve name = .error e) :
    model.stepNamed? name = none ∧ e = .unknownStep name := by
  unfold Model.resolve at h
  split at h
  · cases h
  · rename_i hnone
    cases h
    exact ⟨hnone, rfl⟩

theorem misses_of_resolveAll {names : List String} {e : RunnerError}
    (h : model.resolveAll names = .error e) :
    ∃ name ∈ names, model.stepNamed? name = none ∧ e = .unknownStep name := by
  induction names with
  | nil => cases h
  | cons name rest ih =>
    unfold Model.resolveAll at h
    cases hname : model.resolve name with
    | error e' =>
      rw [hname] at h
      cases h
      exact ⟨name, List.mem_cons_self, misses_of_resolve hname⟩
    | ok step =>
      rw [hname] at h
      cases hrest : model.resolveAll rest with
      | error e' =>
        rw [hrest] at h
        cases h
        obtain ⟨name', hname', hmisses⟩ := ih hrest
        exact ⟨name', List.mem_cons_of_mem _ hname', hmisses⟩
      | ok steps =>
        rw [hrest] at h
        cases h

/-- A flow that stands in for a step that no step is. -/
theorem lacks_of_insteadOf {id : FlowId} {flow : Flow C} {name : String} {e : RunnerError}
    (hflow : model.flow? id = some flow) (hposition : flow.position = some (.insteadOf name))
    (h : model.resolve name = .error e) : model.Lacks e :=
  ⟨id, flow, _, name, hflow, hposition, List.mem_singleton_self name, misses_of_resolve h⟩

theorem lacks_of_replacedBy {steps : List (Step C)} {e : RunnerError}
    (h : replacedBy model steps = .error e) : model.Lacks e := by
  induction steps with
  | nil => cases h
  | cons step rest ih =>
    unfold replacedBy at h
    split at h
    · rename_i name _ hposition
      obtain ⟨flow, hflow, hposition⟩ := Option.bind_eq_some_iff.mp hposition
      cases hname : model.resolve name with
      | error e' =>
        rw [hname] at h
        cases h
        exact lacks_of_insteadOf hflow hposition hname
      | ok replaced =>
        rw [hname] at h
        cases hrest : replacedBy model rest with
        | error e' =>
          rw [hrest] at h
          cases h
          exact ih hrest
        | ok others =>
          rw [hrest] at h
          cases h
    · exact ih h

variable (c : Cursor)

theorem stands_raises (budget : Nat) (step : Step C) :
    Raises model.Lacks (stands ask model c budget step) := by
  induction budget using Nat.strongRecOn generalizing step with
  | ind budget ih =>
    unfold stands
    split
    · exact raises_pure _
    cases step.previous with
    | some previous => exact raises_lift _
    | none =>
      cases hflow : model.flow? step.flow with
      | none => exact raises_pure _
      | some flow =>
        dsimp only
        rcases hposition : flow.position with _ | _ | names | name
        · dsimp only
          split
          · exact raises_pure _
          · exact raises_lift _
        · exact raises_pure _
        · refine (raises_liftM_except fun e he => ?_).bind fun _ => raises_lift _
          obtain ⟨name, hname, hmisses⟩ := misses_of_resolveAll he
          exact ⟨step.flow, flow, _, name, hflow, hposition, hname, hmisses⟩
        · refine (raises_liftM_except fun e he => ?_).bind fun replaced => ?_
          · exact lacks_of_insteadOf hflow hposition he
          · cases budget with
            | zero => exact raises_pure _
            | succ budget => exact ih budget (Nat.lt_succ_self budget) replaced

theorem isReachable_raises (step : Step C) :
    Raises model.Lacks (isReachable ask model c step) := by
  have hoffered : Raises model.Lacks (isOffered ask model c step) := by
    refine (stands_raises c _ step).bind fun standing => ?_
    cases standing
    · exact raises_pure _
    · exact raises_lift _
  refine (raises_lift _).bind fun repeating => ?_
  cases repeating
  · refine hoffered.bind fun offered => ?_
    cases offered
    · exact raises_pure _
    · exact raises_lift _
  · exact raises_lift _

variable (actor : String) (type : MessageType) (scope : Scope)

theorem reachable_raises (steps : List (Step C)) :
    Raises model.Lacks (reachable ask model c actor type scope steps) := by
  induction steps with
  | nil => exact raises_pure _
  | cons step rest ih =>
    unfold reachable
    split
    · refine (isReachable_raises c step).bind fun reaches => ?_
      cases reaches
      · exact ih
      · exact ih.bind fun _ => raises_pure _
    · exact ih

/-- **Looking for candidates fails** only because some flow refers to an unknown step. -/
theorem candidates_lacks : Raises model.Lacks (candidates ask model c actor type scope) := by
  unfold candidates
  refine (reachable_raises c actor type scope _).bind fun found => ?_
  exact (raises_liftM_except fun _ => lacks_of_replacedBy).bind fun _ => raises_pure _

theorem candidates_raises : Raises model.Misses (candidates ask model c actor type scope) :=
  (candidates_lacks c actor type scope).mono fun _ => Model.Lacks.misses

/-- **Resolution fails** only because a step is unknown or several are left. -/
theorem resolve_raises :
    Raises (model.FailsToResolve type) (resolve ask model c actor type scope) := by
  unfold resolve
  refine ((candidates_raises c actor type scope).mono fun _ => .unknown).bind fun left => ?_
  split
  · exact raises_pure _
  · exact raises_pure _
  · rename_i hnil hsingle
    refine raises_throw (.ambiguous ?_)
    rw [List.length_map]
    rcases left with _ | ⟨first, _ | ⟨second, rest⟩⟩
    · exact absurd rfl hnil
    · exact absurd rfl (hsingle first)
    · simp

end Failing

end UseCaseEngine
