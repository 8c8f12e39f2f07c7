import UseCaseEngine.Proofs.Journal
import UseCaseEngine.Proofs.Valuation
import UseCaseEngine.Run.Call

/-!
# What effects do to the world

A call runs user code, which may make calls in turn. What can be said of all of it is a property of
effects that sequences have if their parts have it: if every request has the property, then so does
every program, and a session if its parts do. One such property is to keep within a relation between
the world before and the world after, if the relation composes.

* `Sequential.exec`, `Sequential.evalGuard`: user code has such a property if requests do.
* `Composes.sequential`: keeping within a relation is one.
* `eligible_of_resolve`: a session resolves steps of its model only.
* `resolve_of_candidates`: it resolves the only candidate.
* `fails_of_resolve`: it fails to only because a step is unknown or several could react.
* `Session.Pair.react`, `Session.Parts.react`: what holds of resolving, offering and publishing
  holds of reacting and of going on with system steps, of one session or of two side by side.
* `Session.Primitives.parts`: it holds of these if it holds of requests, and of what a session does
  to its runner and notes of itself.
* `Primitives.occupy`: and it holds of a whole call if it holds of all changes of its runner.
* `Sequential.callWithin`: so it holds of calls at any depth, if it holds of the refusal of one.
-/

namespace UseCaseEngine

variable {S : Signature}

/-- A relation between worlds that holds over a sequence of effects if it holds over each. -/
structure Composes (R : World S → World S → Prop) : Prop where
  refl : ∀ w, R w w
  trans : ∀ {w₁ w₂ w₃}, R w₁ w₂ → R w₂ w₃ → R w₁ w₃

/-- Whatever the world is, the effect takes it to a related one. -/
def Effect.Within {α : Type} (R : World S → World S → Prop) (p : Effect S α) : Prop :=
  ∀ w, R w (p w).2

/-- Whatever the world is, and whether the attempt fails or not, it takes it to a related one. -/
def Attempt.Within {α : Type} (R : World S → World S → Prop) (x : Attempt S α) : Prop :=
  ∀ w, R w (x.run w).2

section Run

variable {α β : Type} (w : World S)

theorem Effect.run_bind (p : Effect S α) (f : α → Effect S β) :
    (p >>= f) w = f (p w).1 (p w).2 := rfl

theorem Attempt.run_bind (x : Attempt S α) (f : α → Attempt S β) :
    (x >>= f).run w = ExceptT.bindCont f (x.run w).1 (x.run w).2 := rfl

theorem Attempt.run_lift_bind (p : Effect S α) (f : α → Attempt S β) :
    ((liftM p : Attempt S α) >>= f).run w = (f (p w).1).run (p w).2 := rfl

end Run

section Sequence

variable {R : World S → World S → Prop} (hR : Composes R) {α β : Type}
include hR

theorem Effect.within_pure (a : α) : Effect.Within R (pure a) := fun w => hR.refl w

/-- The second effect needs to keep within the relation for what the first one can give only. -/
theorem Effect.Within.bind {p : Effect S α} {f : α → Effect S β} (hp : Effect.Within R p)
    (hf : ∀ w, Effect.Within R (f (p w).1)) : Effect.Within R (p >>= f) := fun w =>
  hR.trans (hp w) (hf w (p w).2)

theorem Attempt.within_pure (a : α) : Attempt.Within R (pure a) := fun w => hR.refl w

theorem Attempt.within_throw (e : RunnerError) : Attempt.Within R (throw e : Attempt S α) :=
  fun w => hR.refl w

omit hR in
theorem Attempt.within_lift {p : Effect S α} (hp : Effect.Within R p) :
    Attempt.Within R (liftM p) := hp

/-- What follows an attempt only does what the rest of the sequence may do. -/
theorem Attempt.run_bind_within {x : Attempt S α} {f : α → Attempt S β}
    (hf : ∀ w a, (x.run w).1 = .ok a → Attempt.Within R (f a)) (w : World S) :
    R (x.run w).2 ((x >>= f).run w).2 := by
  rw [Attempt.run_bind w x f]
  cases hresult : (x.run w).1 with
  | ok a => exact hf w a hresult (x.run w).2
  | error e => exact hR.refl _

theorem Attempt.Within.bind {x : Attempt S α} {f : α → Attempt S β} (hx : Attempt.Within R x)
    (hf : ∀ w a, (x.run w).1 = .ok a → Attempt.Within R (f a)) : Attempt.Within R (x >>= f) :=
  fun w => hR.trans (hx w) (Attempt.run_bind_within hR hf w)

end Sequence

/-! ## Properties of effects -/

/-- A property of effects that a sequence has if its parts have it. -/
structure Chained (Φ : {α : Type} → Effect S α → Prop) : Prop where
  pure : ∀ {α : Type} (a : α), Φ (Pure.pure a : Effect S α)
  bind : ∀ {α β : Type} {p : Effect S α} {f : α → Effect S β}, Φ p → (∀ w, Φ (f (p w).1)) →
    Φ (p >>= f)

/-- Looking at the state goes with such a property, and so does looking at a runner, as long as what
is made of the runner does not depend on whether the runner is running, nor on its hook or its
log. -/
structure Sequential (Φ : {α : Type} → Effect S α → Prop) : Prop extends Chained Φ where
  state : Φ (Effect.state : Effect S S.State)
  look : ∀ {β : Type} (r : RunnerId S) {f : Runner S → Effect S β},
    (∀ x running hook recording, f { x with running, hook, recording } = f x) →
      (∀ w : World S, Φ (f (w.runner r))) → Φ (Effect.runner r >>= f)

/-- A relation of effects that holds of two sequences if it holds of their parts, whatever the first
effect of the first sequence gives. -/
structure Coupled (Ψ : {α : Type} → Effect S α → Effect S α → Prop) : Prop where
  pure : ∀ {α : Type} (a : α), Ψ (Pure.pure a : Effect S α) (Pure.pure a)
  bind : ∀ {α β : Type} {p q : Effect S α} {f g : α → Effect S β}, Ψ p q →
    (∀ w, Ψ (f (p w).1) (g (p w).1)) → Ψ (p >>= f) (q >>= g)

/-- A property is a relation that does not look at the second effect. -/
theorem Chained.coupled {Φ : {α : Type} → Effect S α → Prop} (hΦ : Chained Φ) :
    Coupled fun p _ => Φ p := ⟨hΦ.pure, hΦ.bind⟩

/-- Looking at a runner changes nothing. -/
theorem Composes.look {R : World S → World S → Prop} (hR : Composes R) (r : RunnerId S) {β : Type}
    {f : Runner S → Effect S β} (hf : ∀ w : World S, Effect.Within R (f (w.runner r))) :
    Effect.Within R (Effect.runner r >>= f) :=
  Effect.Within.bind (p := Effect.runner r) hR (fun w => hR.refl w) hf

/-- **To keep within a relation** is such a property. -/
theorem Composes.sequential {R : World S → World S → Prop} (hR : Composes R) :
    Sequential (Effect.Within R) where
  pure := Effect.within_pure hR
  bind := Effect.Within.bind hR
  state w := hR.refl w
  look r _ _ hf := hR.look r hf

/-- Whatever the answers are, the program comes to a value with the property. -/
theorem Program.Yields.run {σ α : Type} {I : Interface} {P : α → Prop} {p : Program I α}
    (h : p.Yields P) (handle : (q : I.Request) → StateM σ (I.Answer q)) (w : σ) :
    P (p.run handle w).1 := by
  induction p generalizing w with
  | done a => exact h
  | ask q next ih => exact ih _ (h _) _

theorem Returns.hoist {σ α ε : Type} {I : Interface} {P : α → Prop} {x : ExceptT ε (Program I) α}
    (h : Returns P x) (handle : (q : I.Request) → StateM σ (I.Answer q)) {w : σ} {a : α}
    (ha : ((hoist handle x).run w).1 = .ok a) : P a :=
  Program.Yields.run h handle w a ha

theorem Raises.hoist {σ α ε : Type} {I : Interface} {P : ε → Prop} {x : ExceptT ε (Program I) α}
    (h : Raises P x) (handle : (q : I.Request) → StateM σ (I.Answer q)) {w : σ} {e : ε}
    (he : ((hoist handle x).run w).1 = .error e) : P e :=
  Program.Yields.run h handle w e he

namespace Coupled

variable {Ψ : {α : Type} → Effect S α → Effect S α → Prop} (hΨ : Coupled Ψ) {α β : Type}
include hΨ

theorem throw (e : RunnerError) :
    Ψ (MonadExcept.throw e : Attempt S α).run (MonadExcept.throw e : Attempt S α).run := hΨ.pure _

theorem attempt {x y : Attempt S α} {f g : α → Attempt S β} (hxy : Ψ x.run y.run)
    (hfg : ∀ w a, (x.run w).1 = .ok a → Ψ (f a).run (g a).run) :
    Ψ (x >>= f).run (y >>= g).run := by
  refine hΨ.bind (f := ExceptT.bindCont f) (g := ExceptT.bindCont g) hxy fun w => ?_
  change Ψ (ExceptT.bindCont f (x.run w).1) (ExceptT.bindCont g (x.run w).1)
  cases hresult : (x.run w).1 with
  | ok a => exact hfg w a hresult
  | error e => exact hΨ.pure _

theorem lift {p q : Effect S α} {f g : α → Attempt S β} (hpq : Ψ p q)
    (hfg : ∀ w, Ψ (f (p w).1).run (g (p w).1).run) :
    Ψ ((liftM p : Attempt S α) >>= f).run ((liftM q : Attempt S α) >>= g).run :=
  hΨ.bind (f := fun a => (f a).run) (g := fun a => (g a).run) hpq hfg

end Coupled

namespace Chained

variable {Φ : {α : Type} → Effect S α → Prop} (hΦ : Chained Φ) {α β : Type}
include hΦ

theorem throw (e : RunnerError) : Φ (MonadExcept.throw e : Attempt S α).run := hΦ.pure _

theorem attempt {x : Attempt S α} {f : α → Attempt S β} (hx : Φ x.run)
    (hf : ∀ w a, (x.run w).1 = .ok a → Φ (f a).run) : Φ (x >>= f).run :=
  hΦ.coupled.attempt (y := x) (g := f) hx hf

theorem lift {p : Effect S α} {f : α → Attempt S β} (hp : Φ p) (hf : ∀ w, Φ (f (p w).1).run) :
    Φ ((liftM p : Attempt S α) >>= f).run :=
  hΦ.coupled.lift (q := p) (g := f) hp hf

theorem program {I : Interface} {handle : (q : I.Request) → Effect S (I.Answer q)}
    (h : ∀ q, Φ (handle q)) (p : Program I α) : Φ (p.run handle) := by
  induction p with
  | done a => exact hΦ.pure a
  | ask q next ih => exact hΦ.bind (h q) fun w => ih _

/-- It is enough if those requests have the property that the program makes. -/
theorem asks {I : Interface} {handle : (q : I.Request) → Effect S (I.Answer q)}
    {P : I.Request → Prop} {p : Program I α} (hp : p.Asks P) (h : ∀ q, P q → Φ (handle q)) :
    Φ (p.run handle) := by
  induction p with
  | done a => exact hΦ.pure a
  | ask q next ih => exact hΦ.bind (h q hp.1) fun w => ih _ (hp.2 _)

/-- Writing down what guards answer is not noticed. -/
theorem heardProgram {C : Code} {P : C.Guard → Prop} {p : Program (guards C) α} (hp : p.Asks P)
    {eval : C.Guard → Effect S Bool} (h : ∀ g, P g → Φ (eval g)) (answers : List Bool) :
    Φ ((p.run (m := StateT (List Bool) (Effect S)) (heard eval)).run answers) := by
  induction p generalizing answers with
  | done a => exact hΦ.pure _
  | ask g next ih =>
    exact hΦ.bind (f := fun answer => ((next answer).run (m := StateT (List Bool) (Effect S))
      (heard eval)).run (answers ++ [answer])) (h g hp.1) fun w => ih _ (hp.2 _) _

/-! ## What guards decide -/

section Guards

variable (app : Application S) (calls : Calls S) {model : Model (code S)}
  (hguard : ∀ g, model.HasGuard g → Φ (evalGuard app calls g))
include hguard

theorem candidates (c : Cursor) (actor : String) (type : MessageType) (scope : Scope) :
    Φ (candidates (evalGuard app calls) model c actor type scope).run := by
  rw [← hoist_candidates]
  exact hΦ.asks (I := guards (code S)) (candidates_asks c actor type scope) hguard

theorem resolution (c : Cursor) (actor : String) (type : MessageType) (scope : Scope) :
    Φ (resolve (evalGuard app calls) model c actor type scope).run := by
  rw [← hoist_resolve]
  exact hΦ.asks (I := guards (code S)) (resolve_asks c actor type scope) hguard

theorem apply (here : Cursor) {step : Step (code S)} (hstep : step ∈ model.steps) :
    Φ ((here.apply (heard (evalGuard app calls)) model step).run ([] : List Bool)) := by
  rw [← run_apply]
  exact hΦ.heardProgram (asks_apply here hstep) hguard _

end Guards

end Chained

namespace Sequential

variable {Φ : {α : Type} → Effect S α → Prop} (hΦ : Sequential Φ) {α β : Type}
include hΦ

theorem lookAttempt (r : RunnerId S) {f : Runner S → Attempt S β}
    (hblind : ∀ x running hook recording, f { x with running, hook, recording } = f x)
    (hf : ∀ w : World S, Φ (f (w.runner r)).run) :
    Φ ((liftM (Effect.runner r) : Attempt S (Runner S)) >>= f).run :=
  hΦ.look (f := fun x => (f x).run) r
    (fun x running hook recording => congrArg ExceptT.run (hblind x running hook recording)) hf

/-! ## User code -/

variable (app : Application S) (calls : Calls S)

/-- What is answered to an inquiry has a property of effects if the guards in all models have it. -/
theorem inquiry (hguard : ∀ name g, (app.model name).HasGuard g →
    Φ (UseCaseEngine.evalGuard app calls g)) (q : Inquiry S) : Φ (inquire app calls q) := by
  unfold UseCaseEngine.inquire
  refine hΦ.look q.runner (fun _ _ _ _ => rfl) fun w => ?_
  split
  · exact hΦ.pure _
  · rename_i model _
    exact hΦ.bind (hΦ.toChained.candidates app calls (hguard model) _ _ _ _) fun _ => hΦ.pure _

theorem recordingFromStart {r : RunnerId S} (hrecord : Φ (startRecording r)) :
    Φ (recordFromStart r) := by
  unfold UseCaseEngine.recordFromStart
  refine hΦ.look r (fun _ _ _ _ => rfl) fun w => ?_
  split
  · exact hrecord
  · exact hΦ.pure _

variable (hperform : ∀ q, Φ (perform app calls q))
include hperform

theorem evalGuard (g : Guard S) : Φ (evalGuard app calls g) :=
  hΦ.program (I := guardInterface S) hperform g

theorem candidates (model : Model (code S)) (c : Cursor) (actor : String) (type : MessageType)
    (scope : Scope) :
    Φ (candidates (UseCaseEngine.evalGuard app calls) model c actor type scope).run :=
  hΦ.toChained.candidates app calls (fun g _ => hΦ.evalGuard app calls hperform g) c actor type
    scope

theorem inquire (q : Inquiry S) : Φ (inquire app calls q) :=
  hΦ.inquiry app calls (fun _ g _ => hΦ.evalGuard app calls hperform g) q

theorem exec (p : Action S α) : Φ (exec app calls p) := by
  refine hΦ.program (I := codeInterface S) (fun q => ?_) p
  cases q with
  | inl q => exact hperform q
  | inr q => exact hΦ.inquire app calls hperform q

theorem execReaction (step : Step (code S)) (m : Message) :
    Φ (Session.execReaction app calls step m) := by
  unfold Session.execReaction
  split
  · exact hΦ.exec app calls hperform _
  · exact hΦ.pure _

theorem recordFromStart (r : RunnerId S) : Φ (recordFromStart r) :=
  hΦ.recordingFromStart (hperform (.startRecording r))

theorem resolution (model : Model (code S)) (c : Cursor) (actor : String)
    (type : MessageType) (scope : Scope) :
    Φ (resolve (UseCaseEngine.evalGuard app calls) model c actor type scope).run :=
  hΦ.toChained.resolution app calls (fun g _ => hΦ.evalGuard app calls hperform g) c actor type
    scope

theorem apply (model : Model (code S)) (here : Cursor) (step : Step (code S)) :
    Φ ((here.apply (heard (UseCaseEngine.evalGuard app calls)) model step).run
      ([] : List Bool)) := by
  rw [← run_apply]
  exact hΦ.heardProgram (Program.asks_of_forall (hΦ.evalGuard app calls hperform) _)
    (fun _ hg => hg) _

end Sequential

/-! ## Sessions -/

section Session

variable (app : Application S) (calls : Calls S) (s : Session S)

/-- The candidates are steps of the model that may take the message. -/
theorem eligible_of_candidates {model : Model (code S)} {c : Cursor} {actor : String}
    {type : MessageType} {scope : Scope} {w : World S} {left : List (Step (code S))}
    (h : ((candidates (evalGuard app calls) model c actor type scope).run w).1 = .ok left) :
    ∀ step ∈ left, step.Eligible model c actor type scope := by
  rw [← hoist_candidates] at h
  exact (candidates_returns model c actor type scope).hoist _ h

/-- A session resolves what the model resolves, and notes it. -/
theorem Session.resolve_run (type : MessageType) (scope : Scope) (w : World S) :
    (s.resolve app calls type scope).run w =
      match (UseCaseEngine.resolve (evalGuard app calls) s.model (w.runner s.runner).working
        (w.runner s.runner).actor type scope).run w with
      | (.error e, w') => (.error e, w')
      | (.ok none, w') => (.ok none, w')
      | (.ok (some step), w') => (.ok (some step), w'.note (.resolved s.runner step.id scope
          (w.runner s.runner).working (w.runner s.runner).actor w.state)) := by
  unfold Session.resolve
  rw [Attempt.run_lift_bind, Attempt.run_lift_bind, Attempt.run_bind]
  dsimp only [Effect.runner, Effect.state]
  generalize (UseCaseEngine.resolve (evalGuard app calls) s.model (w.runner s.runner).working
    (w.runner s.runner).actor type scope).run w = result
  obtain ⟨e | _ | step, w'⟩ := result <;> rfl

/-- **A session resolves the only candidate**, and notes it; several are an error. -/
theorem resolve_of_candidates (type : MessageType) (scope : Scope) (w : World S) :
    (s.resolve app calls type scope).run w =
      match (candidates (evalGuard app calls) s.model (w.runner s.runner).working
        (w.runner s.runner).actor type scope).run w with
      | (.error e, w') => (.error e, w')
      | (.ok [], w') => (.ok none, w')
      | (.ok [step], w') => (.ok (some step), w'.note (.resolved s.runner step.id scope
          (w.runner s.runner).working (w.runner s.runner).actor w.state))
      | (.ok steps, w') => (.error (.ambiguousReaction type.name (steps.map (·.name))), w') := by
  unfold Session.resolve
  rw [Attempt.run_lift_bind, Attempt.run_lift_bind, Attempt.run_bind]
  unfold UseCaseEngine.resolve
  rw [Attempt.run_bind]
  dsimp only [Effect.runner, Effect.state]
  generalize (candidates (evalGuard app calls) s.model (w.runner s.runner).working
    (w.runner s.runner).actor type scope).run w = result
  obtain ⟨e | found, w'⟩ := result
  · rfl
  · rcases found with _ | ⟨step, _ | ⟨other, rest⟩⟩ <;> rfl

/-- **A session resolves steps of its model only**, and only those that may take the message. -/
theorem eligible_of_resolve {type : MessageType} {scope : Scope} {w : World S}
    {step : Step (code S)}
    (h : ((s.resolve app calls type scope).run w).1 = .ok (some step)) :
    step.Eligible s.model (w.runner s.runner).working (w.runner s.runner).actor type scope := by
  rw [resolve_of_candidates] at h
  have heligible (left : List (Step (code S))) (hleft : ((candidates (evalGuard app calls) s.model
      (w.runner s.runner).working (w.runner s.runner).actor type scope).run w).1 = .ok left) :=
    eligible_of_candidates app calls hleft
  generalize (candidates (evalGuard app calls) s.model (w.runner s.runner).working
    (w.runner s.runner).actor type scope).run w = result at h heligible
  obtain ⟨e | found, w'⟩ := result
  · cases h
  · rcases found with _ | ⟨only, _ | ⟨other, rest⟩⟩
    · cases h
    · cases h
      exact heligible [step] rfl step List.mem_cons_self
    · cases h

/-- A session fails to resolve a step only because one is unknown or several could react. -/
theorem fails_of_resolve {type : MessageType} {scope : Scope} {w : World S} {e : RunnerError}
    (h : ((s.resolve app calls type scope).run w).1 = .error e) :
    s.model.FailsToResolve type e := by
  have hraises : Raises (s.model.FailsToResolve type) _ :=
    resolve_raises (w.runner s.runner).working (w.runner s.runner).actor type scope
  unfold Session.resolve at h
  rw [Attempt.run_lift_bind, Attempt.run_lift_bind, Attempt.run_bind, ← hoist_resolve] at h
  dsimp only [Effect.runner, Effect.state] at h
  cases hresult : ((hoist (I := guards (code S)) (evalGuard app calls)
    (UseCaseEngine.resolve ask s.model (w.runner s.runner).working (w.runner s.runner).actor type
      scope)).run w).1 with
  | error e' =>
    rw [hresult] at h
    cases h
    exact hraises.hoist _ hresult
  | ok found =>
    rw [hresult] at h
    cases found <;> cases h

/-- A session starts a step, and notes that it offers it. -/
def Session.start (step : Step (code S)) (m : Message) : Effect S Unit := do
  Effect.modifyRunner s.runner fun x => { x with activity := .reacting step.name }
  Effect.note (.offered s.runner step.id m)

/-- What the hook makes of a step that is offered to it. -/
def Session.hooked (step : Step (code S)) (m : Message) : Effect S (Option Output) := do
  match ← exec app calls (s.hook step m) with
  | .suppress _ => return none
  | .trigger after =>
    let output ← exec app calls (after (← s.trigger app calls step m))
    Effect.note (.reacted s.runner step.id m output (← Effect.state))
    return some output

/-- What a session does about a step once the hook is done with it. -/
def Session.conclude (step : Step (code S)) (m : Message) : Option Output → Attempt S Reacted
  | none => return .suppressed
  | some output => do
    Effect.modifyRunner s.runner fun x =>
      { x with
        working := x.working.reached step
        recording := x.recording.record step.name m.type }
    match output with
    | .ok message =>
      let (applied, answers) ← s.applyReaction app calls step
      s.commit ⟨step.id, m, output, answers⟩
      match applied with
      | .error e => throw e
      | .ok () => return .published (← s.deliver app calls step message)
    | .error failure =>
      s.commit ⟨step.id, m, output, []⟩
      return .failed failure

theorem Session.offer_eq (step : Step (code S)) (m : Message) :
    s.offer app calls step m = (do
      Effect.modifyRunner s.runner fun x => { x with activity := .reacting step.name }
      s.conclude app calls step m (← s.around app calls step m)) := rfl

/-- A step is offered in three parts. -/
theorem Session.offer_parts (step : Step (code S)) (m : Message) :
    s.offer app calls step m = (do
      s.start step m
      s.conclude app calls step m (← s.hooked app calls step m)) := rfl

/-- The parts of two sessions on a model are related. -/
structure Session.Pair (Ψ : {α : Type} → Effect S α → Effect S α → Prop) (s s' : Session S) :
    Prop where
  limit : s.limit = s'.limit
  resolve : ∀ type scope,
    Ψ (s.resolve app calls type scope).run (s'.resolve app calls type scope).run
  offer : ∀ step ∈ s.model.steps, ∀ m,
    Ψ (s.offer app calls step m).run (s'.offer app calls step m).run
  publish : ∀ m, Ψ (s.publish app calls m) (s'.publish app calls m)

namespace Session.Pair

variable {app calls s} {Ψ : {α : Type} → Effect S α → Effect S α → Prop} (hΨ : Coupled Ψ)
  {s' : Session S} (h : Session.Pair app calls Ψ s s')
include hΨ h

theorem handleFailure (failed : Step (code S)) (failure : Failure) :
    Ψ (s.handleFailure app calls failed failure).run
      (s'.handleFailure app calls failed failure).run := by
  unfold Session.handleFailure
  refine hΨ.attempt (h.resolve _ _) fun w found hfound => ?_
  cases found with
  | none => exact hΨ.throw _
  | some handler =>
    have hhandler := (eligible_of_resolve app calls s hfound).1
    refine hΨ.attempt (h.offer handler hhandler _) fun w reacted _ => ?_
    cases reacted with
    | suppressed => exact hΨ.throw _
    | published message => exact hΨ.pure _
    | failed failure => exact hΨ.throw _

theorem execute {step : Step (code S)} (hstep : step ∈ s.model.steps) (m : Message) :
    Ψ (s.execute app calls step m).run (s'.execute app calls step m).run := by
  unfold Session.execute
  refine hΨ.attempt (h.offer step hstep m) fun w reacted _ => ?_
  cases reacted with
  | suppressed => exact hΨ.pure _
  | published message => exact hΨ.pure _
  | failed failure =>
    dsimp only
    split
    · exact hΨ.throw _
    · exact hΨ.attempt (h.handleFailure hΨ step failure) fun w message _ => hΨ.pure _

theorem continueWith (left : Nat) (pending : Option Message) :
    Ψ (s.continueWith app calls left pending).run
      (s'.continueWith app calls left pending).run := by
  induction left generalizing pending with
  | zero =>
    unfold Session.continueWith
    refine hΨ.attempt (h.resolve _ _) fun w found _ => ?_
    cases found with
    | none => exact hΨ.pure _
    | some step =>
      dsimp only
      rw [h.limit]
      exact hΨ.throw _
  | succ left ih =>
    unfold Session.continueWith
    refine hΨ.attempt (h.resolve _ _) fun w found hfound => ?_
    cases found with
    | none => exact hΨ.pure _
    | some step =>
      have hstep := (eligible_of_resolve app calls s hfound).1
      refine hΨ.attempt (h.execute hΨ hstep _) fun w message _ => ?_
      cases message with
      | none => exact hΨ.pure _
      | some message =>
        cases pending with
        | none => exact ih message
        | some previous => exact hΨ.lift (h.publish previous) fun w => ih message

theorem react (m : Message) : Ψ (s.react app calls m).run (s'.react app calls m).run := by
  unfold Session.react
  refine hΨ.attempt (h.resolve _ _) fun w found hfound => ?_
  cases found with
  | none => exact hΨ.pure _
  | some step =>
    have hstep := (eligible_of_resolve app calls s hfound).1
    refine hΨ.attempt (h.execute hΨ hstep m) fun w message _ => ?_
    cases message with
    | none => exact hΨ.pure _
    | some message =>
      dsimp only
      rw [h.limit]
      exact h.continueWith hΨ _ message

theorem begin : Ψ (s.begin app calls).run (s'.begin app calls).run := by
  unfold Session.begin
  rw [h.limit]
  refine hΨ.attempt (h.continueWith hΨ _ _) fun w message _ => ?_
  cases message with
  | none => exact hΨ.pure _
  | some message => exact hΨ.lift (h.publish message) fun w => hΨ.pure _

end Session.Pair

/-- The parts of a session have a property of effects. -/
structure Session.Parts (Φ : {α : Type} → Effect S α → Prop) : Prop where
  resolve : ∀ type scope, Φ (s.resolve app calls type scope).run
  offer : ∀ step ∈ s.model.steps, ∀ m, Φ (s.offer app calls step m).run
  publish : ∀ m, Φ (s.publish app calls m)

variable {Φ : {α : Type} → Effect S α → Prop} (hΦ : Sequential Φ)

namespace Session.Parts

variable {app calls s} (h : s.Parts app calls Φ)
include h

/-- A session is a pair with itself. -/
theorem pair : Session.Pair app calls (fun p _ => Φ p) s s where
  limit := rfl
  resolve := h.resolve
  offer := h.offer
  publish := h.publish

include hΦ

theorem handleFailure (failed : Step (code S)) (failure : Failure) :
    Φ (s.handleFailure app calls failed failure).run :=
  h.pair.handleFailure hΦ.coupled failed failure

theorem execute {step : Step (code S)} (hstep : step ∈ s.model.steps) (m : Message) :
    Φ (s.execute app calls step m).run := h.pair.execute hΦ.coupled hstep m

theorem continueWith (left : Nat) (pending : Option Message) :
    Φ (s.continueWith app calls left pending).run := h.pair.continueWith hΦ.coupled left pending

theorem react (m : Message) : Φ (s.react app calls m).run := h.pair.react hΦ.coupled m

theorem begin : Φ (s.begin app calls).run := h.pair.begin hΦ.coupled

end Session.Parts

/-! ## What the parts of a session do themselves -/

/-- A change of a runner that is one of its cursors only, and that does not depend on whether the
runner is running, nor on its hook or its log. -/
structure Steers (f : Runner S → Runner S) : Prop where
  rest : ∀ x, f x = { x with cursor := (f x).cursor, working := (f x).working }
  blind : ∀ x running hook recording,
    f { x with running, hook, recording } = { f x with running, hook, recording }

/-- A change of a runner that makes this of its log, and that depends neither on it otherwise nor on
whether the runner is running. -/
def Logs (f : Runner S → Runner S) (g : Recording → Recording) : Prop :=
  ∀ x running recording,
    f { x with running, recording } = { f x with running, recording := g recording }

/-- A change of a runner that is one of its cursors only, but that a step may be added to its log,
and that depends neither on the log nor on whether the runner is running. -/
structure Inward (f : Runner S → Runner S) : Prop where
  rest : ∀ x, f x = { x with
    cursor := (f x).cursor, working := (f x).working, recording := (f x).recording }
  logs : Logs f id ∨ ∃ step type, Logs f (·.record step type)

theorem Logs.blind {f : Runner S → Runner S} {g : Recording → Recording} (h : Logs f g)
    (x : Runner S) (running : Bool) : f { x with running } = { f x with running } := by
  have hlog : (f x).recording = g x.recording := congrArg Runner.recording (h x x.running _)
  refine (h x running x.recording).trans ?_
  rw [← hlog]

theorem Inward.blind {f : Runner S → Runner S} (h : Inward f) (x : Runner S) (running : Bool) :
    f { x with running } = { f x with running } := by
  rcases h.logs with hlogs | ⟨step, type, hlogs⟩
  · exact hlogs.blind x running
  · exact hlogs.blind x running

theorem Steers.inward {f : Runner S → Runner S} (h : Steers f) : Inward f where
  rest x := by
    have hrecording : (f x).recording = x.recording := by rw [h.rest x]
    rw [hrecording]
    exact h.rest x
  logs := by
    refine .inl fun x running recording => ?_
    have hhook : (f x).hook = x.hook := by rw [h.rest x]
    refine (h.blind x running x.hook recording).trans ?_
    rw [← hhook]
    rfl

/-- What a session notes of a step but that it is offered. -/
def Event.isInner : Event S → Bool
  | .resolved _ _ _ _ _ _ | .triggered _ _ _ _ | .reacted _ _ _ _ _ | .moved _ _
  | .delivered _ _ _ | .published _ _ => true
  | _ => false

/-- What a session notes of a step before it is offered, and after it has reacted. -/
def Event.isOuter : Event S → Bool
  | .resolved _ _ _ _ _ _ | .moved _ _ | .delivered _ _ _ | .published _ _ => true
  | _ => false

/-- The user code that a session runs has a property of effects. -/
structure Session.UserCode (Φ : {α : Type} → Effect S α → Prop) : Prop where
  guard : ∀ g, s.model.HasGuard g → Φ (evalGuard app calls g)
  hook : ∀ step m, Φ (exec app calls (s.hook step m))
  reaction : ∀ step ∈ s.model.steps, ∀ m, Φ (Session.execReaction app calls step m)
  after : ∀ step m w {after}, (exec app calls (s.hook step m) w).1 = .trigger after →
    ∀ output, Φ (exec app calls (after output))
  inbox : ∀ actor {inbox}, (s.model.actorNamed? actor).bind (·.inbox) = some inbox →
    ∀ m, Φ (exec app calls (inbox m))
  publisher : ∀ publisher m, Φ (exec app calls (app.publisher publisher m))

/-- User code has a property of effects if all that it may ask for has it. -/
theorem Sequential.userCode (hΦ : Sequential Φ) (hperform : ∀ q, Φ (perform app calls q)) :
    s.UserCode app calls Φ where
  guard g _ := hΦ.evalGuard app calls hperform g
  hook _ _ := hΦ.exec app calls hperform _
  reaction step _ m := hΦ.execReaction app calls hperform step m
  after _ _ _ _ _ _ := hΦ.exec app calls hperform _
  inbox _ _ _ _ := hΦ.exec app calls hperform _
  publisher _ _ := hΦ.exec app calls hperform _

/-- User code has a property of effects, and so does whatever a session does to its runner and notes
of itself before a step is offered, and after it has reacted. -/
structure Session.Passages (Φ : {α : Type} → Effect S α → Prop) : Prop where
  userCode : s.UserCode app calls Φ
  steer : ∀ f, Steers f → Φ (Effect.modifyRunner s.runner f)
  note : ∀ e : Event S, e.session? = some s.runner → e.isOuter = true → Φ (Effect.note e)

/-- User code has a property of effects, and so does whatever a session does to its runner and notes
of itself. -/
structure Session.Primitives (Φ : {α : Type} → Effect S α → Prop) : Prop where
  userCode : s.UserCode app calls Φ
  change : ∀ f, Inward f → Φ (Effect.modifyRunner s.runner f)
  start : ∀ step ∈ s.model.steps, ∀ m, Φ (s.start step m)
  note : ∀ e : Event S, e.session? = some s.runner → e.isInner = true → Φ (Effect.note e)

/-- A step that reacted becomes the latest one of the call, and is recorded. -/
def Session.log (step : Step (code S)) (m : Message) : Effect S Unit :=
  Effect.modifyRunner s.runner fun x =>
    { x with
      working := x.working.reached step
      recording := x.recording.record step.name m.type }

/-- What a session does about a step that reacted and is recorded. -/
def Session.follow (step : Step (code S)) (m : Message) (output : Output) : Attempt S Reacted :=
  match output with
  | .ok message => do
    let (applied, answers) ← s.applyReaction app calls step
    s.commit ⟨step.id, m, output, answers⟩
    match applied with
    | .error e => throw e
    | .ok () => return .published (← s.deliver app calls step message)
  | .error failure => do
    s.commit ⟨step.id, m, output, []⟩
    return .failed failure

theorem Session.conclude_some (step : Step (code S)) (m : Message) (output : Output) :
    s.conclude app calls step m (some output) = (do
      s.log step m
      s.follow app calls step m output) := by
  cases output <;> rfl

/-- A step that is triggered is noted with what came of it. -/
theorem Session.trigger_run (step : Step (code S)) (m : Message) (w : World S) :
    s.trigger app calls step m w =
      ((Session.execReaction app calls step m w).1,
        (Session.execReaction app calls step m w).2.note
          (.triggered s.runner step.id m (Session.execReaction app calls step m w).1)) := rfl

variable {s} in
/-- Called through, a step reacts, and its output stands. -/
theorem hooked_callThrough (hhook : s.hook = Hook.callThrough) (step : Step (code S)) (m : Message)
    (w : World S) :
    s.hooked app calls step m w =
      (some (s.trigger app calls step m w).1, (s.trigger app calls step m w).2.note
        (.reacted s.runner step.id m (s.trigger app calls step m w).1
          (s.trigger app calls step m w).2.state)) := by
  unfold Session.hooked
  rw [hhook]
  rfl

variable {s} in
/-- A step that reacted is logged, and has its effect. -/
theorem offer_of_hooked {step : Step (code S)} {m : Message} {w w' : World S} {output : Output}
    (h : s.hooked app calls step m (s.start step m w).2 = (some output, w')) :
    (s.offer app calls step m).run w =
      (s.follow app calls step m output).run (s.log step m w').2 := by
  rw [Session.offer_parts, Attempt.run_lift_bind, Attempt.run_lift_bind, h, Session.conclude_some,
    Attempt.run_lift_bind]

namespace Session.Passages

variable {app calls s} (h : s.Passages app calls Φ)
include hΦ h

theorem resolve (type : MessageType) (scope : Scope) :
    Φ (s.resolve app calls type scope).run := by
  unfold Session.resolve
  refine hΦ.lookAttempt s.runner (fun _ _ _ _ => rfl) fun w => ?_
  refine hΦ.lift hΦ.state fun w => ?_
  refine hΦ.attempt (hΦ.toChained.resolution app calls h.userCode.guard _ _ _ _) fun w found _ => ?_
  cases found with
  | none => exact hΦ.pure _
  | some step => exact hΦ.lift (h.note _ rfl rfl) fun w => hΦ.pure _

theorem deliver (step : Step (code S)) (message : Option Message) :
    Φ (s.deliver app calls step message).run := by
  unfold Session.deliver
  split
  · exact hΦ.pure _
  · split
    · exact hΦ.pure _
    · rename_i m _ actor _
      split
      · exact hΦ.pure _
      · rename_i inbox hinbox
        refine hΦ.lift (h.note _ rfl rfl) fun w => ?_
        exact hΦ.attempt (h.userCode.inbox actor hinbox m) fun w _ _ => hΦ.pure _

theorem commit (turn : Turn) : Φ (s.commit turn) := by
  unfold Session.commit
  exact hΦ.bind (h.steer _ ⟨fun _ => rfl, fun _ _ _ _ => rfl⟩) fun w => h.note _ rfl rfl

theorem applyReaction {step : Step (code S)} (hstep : step ∈ s.model.steps) :
    Φ (s.applyReaction app calls step) := by
  unfold Session.applyReaction
  refine hΦ.look s.runner (fun _ _ _ _ => rfl) fun w => ?_
  refine hΦ.bind (hΦ.toChained.apply app calls h.userCode.guard _ hstep) fun w => ?_
  exact hΦ.bind (h.steer _ ⟨fun _ => rfl, fun _ _ _ _ => rfl⟩) fun w => hΦ.pure _

theorem follow {step : Step (code S)} (hstep : step ∈ s.model.steps) (m : Message)
    (output : Output) : Φ (s.follow app calls step m output).run := by
  unfold Session.follow
  cases output with
  | error failure => exact hΦ.lift (h.commit hΦ _) fun w => hΦ.pure _
  | ok message =>
    refine hΦ.lift (h.applyReaction hΦ hstep) fun w => ?_
    refine hΦ.lift (h.commit hΦ _) fun w => ?_
    split
    · exact hΦ.throw _
    · exact hΦ.attempt (h.deliver hΦ step message) fun w _ _ => hΦ.pure _

theorem publish (m : Message) : Φ (s.publish app calls m) := by
  unfold Session.publish
  refine hΦ.look s.runner (fun _ _ _ _ => rfl) fun w => ?_
  split
  · exact hΦ.pure _
  · exact hΦ.bind (h.note _ rfl rfl) fun w => h.userCode.publisher _ m

end Session.Passages

namespace Session.Primitives

variable {app calls s} (h : s.Primitives app calls Φ)
include h

theorem passages : s.Passages app calls Φ where
  userCode := h.userCode
  steer f hf := h.change f hf.inward
  note e hsession houter := h.note e hsession (by cases e <;> first | rfl | cases houter)

include hΦ

variable {step : Step (code S)} (hstep : step ∈ s.model.steps) (m : Message)
include hstep

theorem trigger : Φ (s.trigger app calls step m) := by
  unfold Session.trigger
  refine hΦ.bind (h.userCode.reaction step hstep m) fun w => ?_
  exact hΦ.bind (h.note _ rfl rfl) fun w => hΦ.pure _

theorem hooked : Φ (s.hooked app calls step m) := by
  unfold Session.hooked
  refine hΦ.bind (h.userCode.hook step m) fun w => ?_
  split
  · exact hΦ.pure _
  · rename_i after hafter
    refine hΦ.bind (h.trigger hΦ hstep m) fun w => ?_
    refine hΦ.bind (h.userCode.after step m _ hafter _) fun w => ?_
    refine hΦ.bind hΦ.state fun w => ?_
    exact hΦ.bind (h.note _ rfl rfl) fun w => hΦ.pure _

theorem conclude (output : Option Output) : Φ (s.conclude app calls step m output).run := by
  cases output with
  | none => exact hΦ.pure _
  | some output =>
    rw [Session.conclude_some]
    have hlog : Inward fun x : Runner S => { x with
        working := x.working.reached step
        recording := x.recording.record step.name m.type } :=
      ⟨fun _ => rfl, .inr ⟨step.name, m.type, fun _ _ _ => rfl⟩⟩
    exact hΦ.lift (h.change _ hlog) fun w => h.passages.follow hΦ hstep m output

theorem offer : Φ (s.offer app calls step m).run := by
  rw [Session.offer_parts]
  refine hΦ.lift (h.start step hstep m) fun w => ?_
  exact hΦ.lift (h.hooked hΦ hstep m) fun w => h.conclude hΦ hstep m _

omit hstep

/-- **The parts of a session** have a property of effects if what they do themselves has it. -/
theorem parts : s.Parts app calls Φ where
  resolve := h.passages.resolve hΦ
  offer _ hstep := h.offer hΦ hstep
  publish := h.passages.publish hΦ

end Session.Primitives

end Session

/-! ## Whole calls -/

/-- The parts of the sessions of calls on a runner have a property of effects, and so does what a
call makes of its runner, does to it and notes of itself, as long as this does not go by its log. -/
structure Call.Parts (app : Application S) (calls : Calls S) (r : RunnerId S)
    (Φ : {α : Type} → Effect S α → Prop) : Prop where
  session : ∀ model w, (openSession app r model w).1.Parts app calls Φ
  look : ∀ {β : Type} {f : Runner S → Effect S β}, (∀ x recording, f { x with recording } = f x) →
    (∀ w : World S, Φ (f (w.runner r))) → Φ (Effect.runner r >>= f)
  modify : ∀ f : Runner S → Runner S,
    (∀ x recording, f { x with recording } = { f x with recording }) →
      Φ (Effect.modifyRunner r f)
  record : Φ (startRecording r)
  note : ∀ e : Event S, e.session? = some r → Φ (Effect.note e)

namespace Call.Parts

variable {app : Application S} {calls : Calls S} {r : RunnerId S}
  {Φ : {α : Type} → Effect S α → Prop} (h : Call.Parts app calls r Φ) (hΦ : Sequential Φ)
include h

theorem lookAttempt {β : Type} {f : Runner S → Attempt S β}
    (hblind : ∀ x recording, f { x with recording } = f x)
    (hf : ∀ w : World S, Φ (f (w.runner r)).run) :
    Φ ((liftM (Effect.runner r) : Attempt S (Runner S)) >>= f).run :=
  h.look (f := fun x => (f x).run) (fun x recording => congrArg ExceptT.run (hblind x recording)) hf

include hΦ

theorem openSession (model : S.ModelName) : Φ (openSession app r model) := by
  unfold UseCaseEngine.openSession
  refine hΦ.bind (h.modify _ fun _ _ => rfl) fun w => ?_
  exact h.look (fun _ _ => rfl) fun w => hΦ.pure _

theorem reactTo (m : Message) : Φ (reactTo app calls r m).run := by
  unfold UseCaseEngine.reactTo
  refine h.lookAttempt (fun _ _ => rfl) fun w => ?_
  split
  · exact hΦ.lift (h.openSession hΦ _) fun w => (h.session _ w).react hΦ m
  · exact hΦ.pure _

theorem begin (model : S.ModelName) :
    Φ (liftM (UseCaseEngine.openSession app r model) >>= fun s => s.begin app calls :
      Attempt S _).run :=
  hΦ.lift (h.openSession hΦ model) fun w => (h.session model w).begin hΦ

theorem runModel (model : S.ModelName) : Φ (runModel app calls r model).run := by
  unfold UseCaseEngine.runModel
  refine hΦ.lift (h.modify _ fun _ _ => rfl) fun w => ?_
  refine hΦ.lift (h.note _ rfl) fun w => ?_
  refine hΦ.lift (hΦ.recordingFromStart h.record) fun w => ?_
  exact h.begin hΦ model

theorem serve (c : Call S) : Φ (serve app calls r c).run := by
  cases c with
  | react m => exact h.reactTo hΦ m
  | run model => exact h.runModel hΦ model

theorem occupy (c : Call S) : Φ (occupy app calls r c) := by
  unfold UseCaseEngine.occupy
  refine hΦ.bind (h.note _ rfl) fun w => ?_
  refine hΦ.bind (h.modify _ fun _ _ => rfl) fun w => ?_
  refine hΦ.bind (h.serve hΦ c) fun w => ?_
  refine hΦ.bind (h.modify _ fun _ _ => rfl) fun w => ?_
  exact hΦ.bind (h.note _ rfl) fun w => hΦ.pure _

end Call.Parts

/-- What user code asks for has a property of effects, and so does whatever a call makes of its
runner, does to it and notes of itself. -/
structure Primitives (app : Application S) (calls : Calls S) (r : RunnerId S)
    (Φ : {α : Type} → Effect S α → Prop) : Prop where
  perform : ∀ q, Φ (perform app calls q)
  look : ∀ {β : Type} {f : Runner S → Effect S β}, (∀ w : World S, Φ (f (w.runner r))) →
    Φ (Effect.runner r >>= f)
  modify : ∀ f, Φ (Effect.modifyRunner r f)
  note : ∀ e : Event S, e.session? = some r → Φ (Effect.note e)

namespace Primitives

variable {app : Application S} {calls : Calls S} {Φ : {α : Type} → Effect S α → Prop}

theorem session {s : Session S} (h : Primitives app calls s.runner Φ) (hΦ : Sequential Φ) :
    s.Primitives app calls Φ where
  userCode := hΦ.userCode app calls s h.perform
  change f _ := h.modify f
  start _ _ _ := hΦ.bind (h.modify _) fun _ => h.note _ rfl
  note e he _ := h.note e he

variable {r : RunnerId S} (h : Primitives app calls r Φ) (hΦ : Sequential Φ)
include h hΦ

/-- **The parts of a call** have a property of effects if its requests and its changes have it. -/
theorem parts : Call.Parts app calls r Φ where
  session _ _ := Session.Primitives.parts hΦ (session (s := _) h hΦ)
  look _ := h.look
  modify f _ := h.modify f
  record := h.perform (.startRecording r)
  note := h.note

theorem occupy (c : Call S) : Φ (occupy app calls r c) := (h.parts hΦ).occupy hΦ c

end Primitives

/-! ## Nested calls -/

namespace Sequential

variable {Φ : {α : Type} → Effect S α → Prop} (hΦ : Sequential Φ)
include hΦ

theorem refuse {r : RunnerId S} (hnote : ∀ step, Φ (Effect.note (.refused r step))) :
    Φ (refuse r) := by
  unfold UseCaseEngine.refuse
  refine hΦ.look r (fun _ _ _ _ => rfl) fun w => ?_
  exact hΦ.bind (hnote _) fun _ => hΦ.pure _

/-- **A call** has a property of effects if it has it when it is refused, and when it is
accepted. -/
theorem callWithin {app : Application S} {depth : Nat} {r : RunnerId S} {c : Call S}
    (hrefuse : Φ (UseCaseEngine.refuse r))
    (hoccupy : Φ (occupy app (callWithin app depth) r c)) : Φ (callWithin app (depth + 1) r c) := by
  unfold UseCaseEngine.callWithin
  refine hΦ.look r (fun _ _ _ _ => rfl) fun w => ?_
  split
  · exact hoccupy
  · exact hrefuse

end Sequential

end UseCaseEngine
