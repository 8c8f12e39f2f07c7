import UseCaseEngine.Proofs.Asking
import UseCaseEngine.Proofs.Validity

/-!
# Resolution where guards change nothing

Resolution asks the guards of the model and no other ones. Where evaluating these changes nothing,
it comes to what it would come to with fixed answers: a *valuation* `C.Guard → Bool`. With fixed
answers, resolution is a plain function, and what it finds can be said step by step.

Out of scope: guards that change something. What is found then is told by the world in which each
step was asked (`asked`).

* `candidates_asks`, `resolve_asks`, `asks_apply`: only guards of the model are asked.
* **`candidates_of_quiet`, `resolve_of_quiet`**: guards that change nothing act as a valuation.
* `mem_reachable`, `mem_candidates`: which steps are found, and which of them are left.
* `candidates_of_forall`: these steps, where it is known which ones can be reached.
* `candidates_sublist`: they come in the order of the model.
-/

namespace UseCaseEngine

/-! ## What is asked -/

section Asks

variable {I : Interface} {α β ε : Type} {P : I.Request → Prop}

/-- Whatever the answers, the program makes no other requests than those. -/
def Program.Asks (P : I.Request → Prop) : Program I α → Prop
  | .done _ => True
  | .ask q next => P q ∧ ∀ answer, (next answer).Asks P

theorem Program.asks_of_forall (h : ∀ q, P q) (p : Program I α) : p.Asks P := by
  induction p with
  | done a => trivial
  | ask q next ih => exact ⟨h q, ih⟩

theorem Program.Asks.bind {p : Program I α} {f : α → Program I β} (hp : p.Asks P)
    (hf : ∀ a, (f a).Asks P) : (p >>= f).Asks P := by
  induction p with
  | done a => exact hf a
  | ask q next ih => exact ⟨hp.1, fun answer => ih answer (hp.2 answer)⟩

theorem Program.Asks.exceptBind {x : ExceptT ε (Program I) α} {f : α → ExceptT ε (Program I) β}
    (hx : x.run.Asks P) (hf : ∀ a, (f a).run.Asks P) : (x >>= f).run.Asks P := by
  rw [ExceptT.run_bind]
  refine hx.bind fun result => ?_
  cases result with
  | ok a => exact hf a
  | error e => trivial

theorem Program.Asks.lift {p : Program I α} (hp : p.Asks P) :
    (ExceptT.lift p : ExceptT ε (Program I) α).run.Asks P := by
  rw [ExceptT.run_lift, map_eq_pure_bind]
  exact hp.bind fun _ => trivial

/-- A program comes to the same wherever its requests do. -/
theorem Program.Asks.run_congr {m : Type → Type} [Monad m] {p : Program I α} (hp : p.Asks P)
    {handle handle' : (q : I.Request) → m (I.Answer q)} (h : ∀ q, P q → handle q = handle' q) :
    p.run handle = p.run handle' := by
  induction p with
  | done a => rfl
  | ask q next ih =>
    unfold Program.run
    rw [h q hp.1]
    congr 1
    funext answer
    exact ih answer (hp.2 answer)

/-- **Requests that change nothing** might as well be answered once and for all. -/
theorem Program.Asks.run_of_quiet {σ : Type} {p : Program I α} (hp : p.Asks P)
    {handle : (q : I.Request) → StateM σ (I.Answer q)} {w : σ}
    (hquiet : ∀ q, P q → (handle q w).2 = w) :
    p.run handle w = (p.run (m := Id) (fun q => (handle q w).1), w) := by
  induction p with
  | done a => rfl
  | ask q next ih =>
    change (next (handle q w).1).run handle (handle q w).2 = _
    rw [hquiet q hp.1]
    exact ih _ (hp.2 _)

end Asks

variable {C : Code}

/-- The guard is one of a step of the model, or of one of its flows. -/
def Model.HasGuard (model : Model C) (g : C.Guard) : Prop :=
  (∃ s ∈ model.steps, s.guard = some g ∨ s.repeatWhile = some g) ∨
    ∃ f ∈ model.flows, f.guard = some g

section Resolution

variable {model : Model C}

theorem asks_holds {g : Option C.Guard} (h : ∀ a, g = some a → model.HasGuard a) :
    (holds ask g).Asks (I := guards C) model.HasGuard := by
  cases g with
  | none => trivial
  | some a => exact ⟨h a rfl, fun _ => trivial⟩

theorem asks_loops {s : Step C} (hs : s ∈ model.steps) :
    (s.loops ask).Asks (I := guards C) model.HasGuard := by
  unfold Step.loops
  cases hrepeat : s.repeatWhile with
  | none => trivial
  | some g => exact ⟨.inl ⟨s, hs, .inr hrepeat⟩, fun _ => trivial⟩

theorem asks_settle {s : Step C} (hs : s ∈ model.steps) (frames : List Frame) :
    (settle ask model s frames).Asks (I := guards C) model.HasGuard := by
  induction frames generalizing s with
  | nil => trivial
  | cons frame rest ih =>
    unfold settle
    split
    · refine (asks_loops hs).bind fun loops => ?_
      cases loops
      · cases hinclude : model.step? frame.includeStep with
        | none => trivial
        | some step => exact ih (Model.mem_steps_of_step? hinclude)
      · trivial
    · trivial

/-- The effect of a step of the model asks guards of the model only. -/
theorem asks_apply (here : Cursor) {s : Step C} (hs : s ∈ model.steps) :
    (here.apply ask model s).Asks (I := guards C) model.HasGuard := by
  unfold Cursor.apply
  split
  · exact (asks_settle hs here.frames).bind fun _ => trivial
  · exact (asks_settle hs here.frames).bind fun _ => trivial
  all_goals split <;> trivial

variable (c : Cursor)

theorem asks_isAfter (id : StepId) :
    (isAfter ask model c id).Asks (I := guards C) model.HasGuard := by
  unfold isAfter
  split
  · split
    · rename_i s hs
      exact (asks_loops (Model.mem_steps_of_step? hs)).bind fun _ => trivial
    · trivial
  · trivial

theorem asks_isAfterAny (steps : List (Step C)) :
    (isAfterAny ask model c steps).Asks (I := guards C) model.HasGuard := by
  induction steps with
  | nil => trivial
  | cons s rest ih =>
    unfold isAfterAny
    refine (asks_isAfter c s.id).bind fun found => ?_
    cases found
    · exact ih
    · trivial

theorem asks_defaultEntry (flow : Flow C) :
    (defaultEntry ask model c flow).Asks (I := guards C) model.HasGuard := by
  unfold defaultEntry
  split
  · trivial
  · split
    · split
      · exact asks_isAfter c _
      · trivial
    · trivial

theorem asks_stands (budget : Nat) (s : Step C) :
    (stands ask model c budget s).run.Asks (I := guards C) model.HasGuard := by
  induction budget using Nat.strongRecOn generalizing s with
  | ind budget ih =>
    unfold stands
    split
    · trivial
    cases s.previous with
    | some previous => exact (asks_isAfter c previous).lift
    | none =>
      cases model.flow? s.flow with
      | none => trivial
      | some flow =>
        dsimp only
        rcases flow.position with _ | _ | names | name
        · dsimp only
          split
          · trivial
          · exact (asks_defaultEntry c flow).lift
        · trivial
        · refine Program.Asks.exceptBind (x := liftM (model.resolveAll names)) trivial
            fun steps => ?_
          exact (asks_isAfterAny c steps).lift
        · refine Program.Asks.exceptBind (x := liftM (model.resolve name)) trivial fun target => ?_
          cases budget with
          | zero => trivial
          | succ budget => exact ih budget (Nat.lt_succ_self budget) target

theorem asks_entryGuardHolds (s : Step C) :
    (entryGuardHolds ask model s).Asks (I := guards C) model.HasGuard := by
  unfold entryGuardHolds
  split
  · split
    · rename_i flow hflow
      exact asks_holds fun g hg => .inr ⟨flow, Model.mem_flows_of_flow? hflow, hg⟩
    · trivial
  · trivial

theorem asks_isWilling {s : Step C} (hs : s ∈ model.steps) :
    (isWilling ask s).Asks (I := guards C) model.HasGuard := by
  unfold isWilling
  refine (asks_holds fun g hg => .inl ⟨s, hs, .inl hg⟩).bind fun guard => ?_
  cases guard
  · trivial
  · exact asks_holds fun g hg => .inl ⟨s, hs, .inr hg⟩

theorem asks_isReachable {s : Step C} (hs : s ∈ model.steps) :
    (isReachable ask model c s).run.Asks (I := guards C) model.HasGuard := by
  have hwilling : (ExceptT.lift (isWilling ask s) : ExceptT RunnerError _ Bool).run.Asks
      (I := guards C) model.HasGuard := (asks_isWilling hs).lift
  have hrepeating : (isRepeating ask c s).Asks (I := guards C) model.HasGuard := by
    unfold isRepeating
    split
    · exact asks_loops hs
    · trivial
  have hoffered : (isOffered ask model c s).run.Asks (I := guards C) model.HasGuard := by
    unfold isOffered
    refine (asks_stands c _ s).exceptBind fun standing => ?_
    cases standing
    · trivial
    · exact (asks_entryGuardHolds s).lift
  unfold isReachable
  refine hrepeating.lift.exceptBind fun repeating => ?_
  cases repeating
  · refine hoffered.exceptBind fun offered => ?_
    cases offered
    · trivial
    · exact hwilling
  · exact hwilling

variable (actor : String) (type : MessageType) (scope : Scope)

theorem asks_reachable {steps : List (Step C)} (hsub : steps ⊆ model.steps) :
    (reachable ask model c actor type scope steps).run.Asks (I := guards C) model.HasGuard := by
  induction steps with
  | nil => trivial
  | cons s rest ih =>
    obtain ⟨hs, hrest⟩ := List.cons_subset.mp hsub
    unfold reachable
    split
    · refine (asks_isReachable c hs).exceptBind fun reaches => ?_
      cases reaches
      · exact ih hrest
      · exact (ih hrest).exceptBind fun _ => trivial
    · exact ih hrest

theorem candidates_asks :
    (candidates ask model c actor type scope).run.Asks (I := guards C) model.HasGuard := by
  unfold candidates
  refine (asks_reachable c actor type scope (List.Subset.refl _)).exceptBind fun found => ?_
  exact Program.Asks.exceptBind (x := liftM (replacedBy model found)) trivial fun _ => trivial

theorem resolve_asks :
    (resolve ask model c actor type scope).run.Asks (I := guards C) model.HasGuard := by
  unfold resolve
  refine (candidates_asks c actor type scope).exceptBind fun found => ?_
  split <;> trivial

/-- Valuations that agree on the guards of the model let the same steps pass. -/
theorem candidates_congr {ν ν' : C.Guard → Bool} (h : ∀ g, model.HasGuard g → ν g = ν' g) :
    (candidates (m := Id) ν model c actor type scope).run =
      (candidates (m := Id) ν' model c actor type scope).run := by
  rw [← hoist_candidates (m := Id) ν, ← hoist_candidates (m := Id) ν']
  exact (candidates_asks c actor type scope).run_congr (m := Id) h

/-! ## Guards that change nothing -/

section Quiet

variable {σ : Type} {eval : C.Guard → StateM σ Bool} {w : σ}
  (hquiet : ∀ g, model.HasGuard g → (eval g w).2 = w)
include hquiet

/-- **Guards that change nothing act as a valuation**, and so do the steps that they let pass. -/
theorem candidates_of_quiet :
    (candidates eval model c actor type scope).run w =
      ((candidates (m := Id) (fun g => (eval g w).1) model c actor type scope).run, w) := by
  rw [← hoist_candidates, ← hoist_candidates (m := Id)]
  exact (candidates_asks c actor type scope).run_of_quiet hquiet

/-- So does the step that they let resolve. -/
theorem resolve_of_quiet :
    (resolve eval model c actor type scope).run w =
      ((resolve (m := Id) (fun g => (eval g w).1) model c actor type scope).run, w) := by
  rw [← hoist_resolve, ← hoist_resolve (m := Id)]
  exact (resolve_asks c actor type scope).run_of_quiet hquiet

end Quiet

end Resolution

/-! ## Fixed answers -/

/-- The step enters a flow in place of the other one. -/
def Model.StandsInFor (model : Model C) (s target : Step C) : Prop :=
  s.isEntry = true ∧ ∃ name, (model.flow? s.flow).bind (·.position) = some (.insteadOf name) ∧
    model.resolve name = .ok target

theorem run_bind_eq_ok_iff {α β ε : Type} {b : β} {x : ExceptT ε Id α}
    {f : α → ExceptT ε Id β} :
    (x >>= f).run = Except.ok b ↔ ∃ a, x.run = Except.ok a ∧ (f a).run = Except.ok b := by
  rw [ExceptT.run_bind]
  cases x.run with
  | error e => exact ⟨nofun, fun ⟨_, h, _⟩ => nomatch h⟩
  | ok a => exact ⟨fun h => ⟨a, rfl, h⟩, fun ⟨_, h, hf⟩ => by cases h; exact hf⟩

section Fixed

variable (ν : C.Guard → Bool) {model : Model C} {c : Cursor} {actor : String} {type : MessageType}
  {scope : Scope}

/-- Whether the step at the front is found. -/
theorem reachable_cons_eq_ok {s : Step C} {rest found : List (Step C)}
    (h : (reachable (m := Id) ν model c actor type scope (s :: rest)).run = Except.ok found) :
    ∃ others, (reachable (m := Id) ν model c actor type scope rest).run = Except.ok others ∧
      ((found = s :: others ∧
          (scope.admits c s = true ∧ s.isOpenTo actor = true ∧ s.expects type = true) ∧
            (isReachable (m := Id) ν model c s).run = Except.ok true) ∨
        (found = others ∧
          ¬ ((scope.admits c s = true ∧ s.isOpenTo actor = true ∧ s.expects type = true) ∧
            (isReachable (m := Id) ν model c s).run = Except.ok true))) := by
  rw [reachable] at h
  simp only [Bool.and_eq_true, and_assoc] at h
  split at h
  · rename_i hfits
    obtain ⟨reaches, hreaches, h⟩ := run_bind_eq_ok_iff.mp h
    cases reaches with
    | true =>
      obtain ⟨others, hothers, h⟩ := run_bind_eq_ok_iff.mp h
      cases h
      exact ⟨others, hothers, .inl ⟨rfl, hfits, hreaches⟩⟩
    | false =>
      refine ⟨found, h, .inr ⟨rfl, fun ⟨_, hreach⟩ => ?_⟩⟩
      rw [hreaches] at hreach
      cases hreach
  · rename_i hfits
    exact ⟨found, h, .inr ⟨rfl, fun hfit => hfits hfit.1⟩⟩

/-- **What is found**: the steps that take part, are open to the actor, expect the message and can
be reached. -/
theorem mem_reachable {steps found : List (Step C)}
    (h : (reachable (m := Id) ν model c actor type scope steps).run = Except.ok found)
    (s : Step C) :
    s ∈ found ↔ s ∈ steps ∧ (scope.admits c s = true ∧ s.isOpenTo actor = true ∧
      s.expects type = true) ∧ (isReachable (m := Id) ν model c s).run = Except.ok true := by
  induction steps generalizing found with
  | nil =>
    cases h
    simp
  | cons first rest ih =>
    obtain ⟨others, hothers, ⟨rfl, hfirst⟩ | ⟨rfl, hfirst⟩⟩ := reachable_cons_eq_ok ν h
    · rw [List.mem_cons, ih hothers, List.mem_cons]
      constructor
      · rintro (rfl | ⟨hs, hrest⟩)
        · exact ⟨.inl rfl, hfirst⟩
        · exact ⟨.inr hs, hrest⟩
      · rintro ⟨rfl | hs, hrest⟩
        · exact .inl rfl
        · exact .inr ⟨hs, hrest⟩
    · rw [ih hothers, List.mem_cons]
      refine ⟨fun ⟨hs, hrest⟩ => ⟨.inr hs, hrest⟩, ?_⟩
      rintro ⟨rfl | hs, hrest⟩
      · exact absurd hrest hfirst
      · exact ⟨hs, hrest⟩

theorem reachable_sublist {steps found : List (Step C)}
    (h : (reachable (m := Id) ν model c actor type scope steps).run = Except.ok found) :
    found.Sublist steps := by
  induction steps generalizing found with
  | nil =>
    cases h
    exact List.Sublist.slnil
  | cons first rest ih =>
    obtain ⟨others, hothers, ⟨rfl, -⟩ | ⟨rfl, -⟩⟩ := reachable_cons_eq_ok ν h
    · exact (ih hothers).cons_cons first
    · exact (ih hothers).cons first

/-- What the steps of a list stand in for. -/
theorem mem_replacedBy {found : List (Step C)} {replaced : List StepId}
    (h : replacedBy model found = .ok replaced) (id : StepId) :
    id ∈ replaced ↔ ∃ s ∈ found, ∃ target, model.StandsInFor s target ∧ target.id = id := by
  induction found generalizing replaced with
  | nil =>
    cases h
    simp
  | cons first rest ih =>
    unfold replacedBy at h
    split at h
    · rename_i name hentry hposition
      obtain ⟨target, htarget, h⟩ := bind_eq_ok_iff.mp h
      obtain ⟨others, hothers, h⟩ := bind_eq_ok_iff.mp h
      cases h
      rw [List.mem_cons, ih hothers]
      constructor
      · rintro (rfl | ⟨s, hs, hrest⟩)
        · exact ⟨first, List.mem_cons_self, target, ⟨hentry, name, hposition, htarget⟩, rfl⟩
        · exact ⟨s, List.mem_cons_of_mem _ hs, hrest⟩
      · rintro ⟨s, hs, other, hstands, rfl⟩
        rcases List.mem_cons.mp hs with rfl | hs
        · obtain ⟨-, name', hposition', hother⟩ := hstands
          obtain rfl : name = name' := by simpa using hposition.symm.trans hposition'
          obtain rfl : target = other := Except.ok.inj (htarget.symm.trans hother)
          exact .inl rfl
        · exact .inr ⟨s, hs, other, hstands, rfl⟩
    · rename_i hnone
      rw [ih h]
      constructor
      · rintro ⟨s, hs, hrest⟩
        exact ⟨s, List.mem_cons_of_mem _ hs, hrest⟩
      · rintro ⟨s, hs, target, hstands, rfl⟩
        rcases List.mem_cons.mp hs with rfl | hs
        · obtain ⟨hentry, name, hposition, -⟩ := hstands
          exact absurd hposition (hnone name hentry)
        · exact ⟨s, hs, target, hstands, rfl⟩

omit ν in
/-- The steps of a list that none of them stands in for. -/
theorem mem_of_replacedBy {found : List (Step C)} {replaced : List StepId}
    (h : replacedBy model found = .ok replaced) (s : Step C) :
    s ∈ found.filter (fun s => !replaced.contains s.id) ↔ s ∈ found ∧
      ∀ t ∈ found, ∀ target, model.StandsInFor t target → target.id ≠ s.id := by
  have hmem := mem_replacedBy h s.id
  simp only [List.mem_filter, Bool.not_eq_true', List.contains_eq_mem, decide_eq_false_iff_not]
  refine and_congr_right fun _ => ⟨fun hnot t ht target hstands hid => ?_, fun hnone hin => ?_⟩
  · exact hnot (hmem.mpr ⟨t, ht, target, hstands, hid⟩)
  · obtain ⟨t, ht, target, hstands, hid⟩ := hmem.mp hin
    exact hnone t ht target hstands hid

/-- The steps that are left, and those that were found. -/
theorem candidates_eq_ok {left : List (Step C)}
    (h : (candidates (m := Id) ν model c actor type scope).run = Except.ok left) :
    ∃ found replaced,
      (reachable (m := Id) ν model c actor type scope model.steps).run = Except.ok found ∧
        replacedBy model found = .ok replaced ∧
          left = found.filter fun s => !replaced.contains s.id := by
  obtain ⟨found, hfound, h⟩ := run_bind_eq_ok_iff.mp h
  obtain ⟨replaced, hreplaced, h⟩ := run_bind_eq_ok_iff.mp h
  cases h
  exact ⟨found, replaced, hfound, hreplaced, rfl⟩

/-- **What is left of it**: the steps that none of those found stands in for. -/
theorem mem_candidates {left : List (Step C)}
    (h : (candidates (m := Id) ν model c actor type scope).run = Except.ok left) :
    ∃ found, (reachable (m := Id) ν model c actor type scope model.steps).run = Except.ok found ∧
      ∀ s, s ∈ left ↔ s ∈ found ∧
        ∀ t ∈ found, ∀ target, model.StandsInFor t target → target.id ≠ s.id := by
  obtain ⟨found, replaced, hfound, hreplaced, rfl⟩ := candidates_eq_ok ν h
  exact ⟨found, hfound, mem_of_replacedBy hreplaced⟩

/-- The steps that are found, where it is known which of them can be reached. -/
theorem reachable_of_forall {reach : Step C → Bool} {steps : List (Step C)}
    (h : ∀ s ∈ steps, (isReachable (m := Id) ν model c s).run = Except.ok (reach s)) :
    (reachable (m := Id) ν model c actor type scope steps).run = Except.ok (steps.filter fun s =>
      scope.admits c s && s.isOpenTo actor && s.expects type && reach s) := by
  induction steps with
  | nil => rfl
  | cons s rest ih =>
    obtain ⟨hs, hrest⟩ := List.forall_mem_cons.mp h
    unfold reachable
    cases hfits : scope.admits c s && s.isOpenTo actor && s.expects type with
    | false => rw [if_neg Bool.false_ne_true, ih hrest, List.filter_cons, hfits]; rfl
    | true =>
      rw [if_pos rfl, ExceptT.run_bind, hs, List.filter_cons, hfits, Bool.true_and]
      cases reach s with
      | false => exact ih hrest
      | true =>
        change (reachable (m := Id) ν model c actor type scope rest >>= fun found =>
          pure (s :: found)).run = _
        rw [ExceptT.run_bind, ih hrest]
        rfl

omit ν in
/-- Where no flow stands in for a step, no step does. -/
theorem replacedBy_eq_nil (h : ∀ f ∈ model.flows, ∀ name, f.position ≠ some (.insteadOf name))
    (found : List (Step C)) : replacedBy model found = .ok [] := by
  induction found with
  | nil => rfl
  | cons s rest ih =>
    unfold replacedBy
    split
    · rename_i name _ hposition
      obtain ⟨f, hf, hposition⟩ := Option.bind_eq_some_iff.mp hposition
      exact absurd hposition (h f (Model.mem_flows_of_flow? hf) name)
    · exact ih

/-- **The steps that are left**, where it is known which of them can be reached, and none stands in
for another one. -/
theorem candidates_of_forall {reach : Step C → Bool}
    (h : ∀ s ∈ model.steps, (isReachable (m := Id) ν model c s).run = Except.ok (reach s))
    (hflows : ∀ f ∈ model.flows, ∀ name, f.position ≠ some (.insteadOf name)) :
    (candidates (m := Id) ν model c actor type scope).run =
      Except.ok (model.steps.filter fun s =>
        scope.admits c s && s.isOpenTo actor && s.expects type && reach s) := by
  unfold candidates
  rw [ExceptT.run_bind, reachable_of_forall ν h]
  change (liftM (replacedBy model _) >>= fun replaced => pure (List.filter _ _) :
    ExceptT RunnerError Id _).run = _
  rw [replacedBy_eq_nil hflows]
  exact congrArg Except.ok (List.filter_eq_self.mpr fun _ _ => rfl)

/-- The steps that are left come in the order of the model. -/
theorem candidates_sublist {left : List (Step C)}
    (h : (candidates (m := Id) ν model c actor type scope).run = Except.ok left) :
    left.Sublist model.steps := by
  obtain ⟨found, replaced, hfound, -, rfl⟩ := candidates_eq_ok ν h
  exact List.filter_sublist.trans (reachable_sublist ν hfound)

end Fixed

end UseCaseEngine
