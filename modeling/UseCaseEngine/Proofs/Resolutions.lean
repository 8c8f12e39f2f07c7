import UseCaseEngine.Proofs.Preemption
import UseCaseEngine.Proofs.Sequence
import UseCaseEngine.Proofs.Throughout

/-!
# Where steps are resolved

A session resolves a step in the world where it starts to look for one: at the cursor of its call,
for the actor that acts there and in the state of the application there. Every resolution that a
journal notes was made by such a session. Guards are asked one after another, and what they do is
done when the next one is asked; the step that is resolved can be reached by what its own guards
answered.

Out of scope: what the hook makes of a step that was resolved.

* `Program.requests`, `Step.Hears`: what is asked of guards, and in which states.
* `exists_asked_of_resolve`, **`reached_of_isReachedIn`**: a step that a model resolves was asked,
  and it can be reached by the rules of positions.
* `Resolution`, **`witnessed_of_reachable`**: every resolution in a journal was made by a session.
* `Sequenced.offered`, **`reached_of_moved`**: a step that is offered was resolved right before, and
  one that took its turn could be reached there.
-/

namespace UseCaseEngine

variable {S : Signature}

/-! ## What guards answer -/

section Requests

variable {I : Interface} {σ α : Type} (handle : (q : I.Request) → StateM σ (I.Answer q))

/-- What a program asks for, each time with the state that the answers before have left. -/
def Program.requests : Program I α → σ → List (I.Request × σ)
  | .done _, _ => []
  | .ask q next, w => (q, w) :: Program.requests (next (handle q w).1) (handle q w).2

/-- A program comes to a value by the answers that its requests get. -/
theorem Program.gives_run {said : (q : I.Request) → I.Answer q → Prop} (p : Program I α) {w : σ}
    (h : ∀ q v, (q, v) ∈ p.requests handle w → said q (handle q v).1) :
    p.Gives said (p.run handle w).1 := by
  induction p generalizing w with
  | done a => rfl
  | ask q next ih =>
    exact ⟨_, h q w List.mem_cons_self, ih _ fun q' v hv => h q' v (List.mem_cons_of_mem _ hv)⟩

end Requests

section Hears

variable {C : Code} {σ : Type} (eval : C.Guard → StateM σ Bool) (model : Model C) (c : Cursor)

/-- While the step is asked whether it can be reached, from this state on, a guard answers this. -/
def Step.Hears (step : Step C) (w : σ) (g : C.Guard) (answer : Bool) : Prop :=
  ∃ v, (g, v) ∈ Program.requests (I := guards C) eval (isReachable ask model c step).run w ∧
    (eval g v).1 = answer

variable {eval model c} {actor : String} {type : MessageType} {scope : Scope} {step : Step C}
  {w v : σ}

/-- **What is asked and can be reached** can be reached by the rules, as its guards answer. -/
theorem reached_of_isReachedIn (h : step.isReachedIn eval model c w = true) :
    step.Reached model c (step.Hears eval model c w) := by
  have hreachable : ((isReachable eval model c step).run w).1 = .ok true := by
    unfold Step.isReachedIn at h
    split at h
    · assumption
    · cases h
  have hgives : (isReachable ask model c step).run.Gives (I := guards C)
      (step.Hears eval model c w) _ :=
    Program.gives_run (I := guards C) eval _ fun g u hg => ⟨u, hg, rfl⟩
  rw [← hoist_isReachable] at hreachable
  exact reached_of_gives (hreachable ▸ hgives)

/-- Only steps that fit are asked. -/
theorem fits_of_mem_asked {steps : List (Step C)}
    (h : (step, v) ∈ asked eval model c actor type scope steps w) :
    step ∈ steps ∧ step.fits c actor type scope = true := by
  have hmem := List.mem_map_of_mem (f := Prod.fst) h
  rw [map_fst_asked] at hmem
  exact List.mem_filter.mp hmem

/-- A step that is resolved was asked, and could be reached then. -/
theorem exists_asked_of_resolve (hplaced : model.Placed)
    (h : ((resolve eval model c actor type scope).run w).1 = .ok (some step)) :
    ∃ v, (step, v) ∈ asked eval model c actor type scope model.steps w ∧
      step.isReachedIn eval model c v = true := by
  rw [resolve_run] at h
  cases hleft : ((candidates eval model c actor type scope).run w).1 with
  | error e =>
    rw [hleft] at h
    cases h
  | ok left =>
    have houtermost := outermost_of_candidates eval model c actor type scope hplaced hleft
    rw [hleft] at h
    rcases left with _ | ⟨only, _ | ⟨other, rest⟩⟩
    · cases h
    · cases h
      obtain ⟨x, hx, rfl⟩ := List.mem_map.mp ((houtermost.mem step).mp List.mem_cons_self).1
      exact ⟨x.2, List.mem_filter.mp hx⟩
    · cases h

end Hears

/-! ## Resolutions that are noted -/

section Resolution

variable (app : Application S) (r : RunnerId S)

/-- A session of a runner's call resolves a step of the model that was run last, and notes it after
what happened until then. While it looked for the step, the call was not disturbed. -/
structure Resolution where
  depth : Nat
  session : Session S
  name : S.ModelName
  type : MessageType
  scope : Scope
  step : Step (code S)
  /-- The world in which the session starts to look for a step. -/
  start : World S
  /-- What had happened when the step was resolved. -/
  before : List (Event S)
  runner : session.runner = r
  model : session.model = app.model name
  bound : ranModel? r before = some name
  busy : (start.runner r).activity ≠ .idle
  since : ∃ asked, before = asked ++ start.journal ∧ ∀ e ∈ asked, e.session? ≠ some r
  resolved : ∃ after,
    (session.resolve app (callWithin app depth) type scope).run start = (.ok (some step), after) ∧
      after.journal = .resolved r step.id scope (start.runner r).working (start.runner r).actor
        start.state :: before

variable {app r}

/-- What is noted of a resolution: the step with the cursor, the actor and the state. -/
def Resolution.event (x : Resolution app r) : Event S :=
  .resolved r x.step.id x.scope (x.start.runner r).working (x.start.runner r).actor x.start.state

/-- The model resolves the step. -/
theorem Resolution.found (x : Resolution app r) : ∃ after,
    (resolve (evalGuard app (callWithin app x.depth)) (app.model x.name)
      (x.start.runner r).working (x.start.runner r).actor x.type x.scope).run x.start =
        (.ok (some x.step), after) ∧ after.journal = x.before := by
  obtain ⟨after, hresolve, hjournal⟩ := x.resolved
  rw [Session.resolve_run, x.runner, x.model] at hresolve
  generalize (UseCaseEngine.resolve (evalGuard app (callWithin app x.depth)) (app.model x.name)
    (x.start.runner r).working (x.start.runner r).actor x.type x.scope).run x.start = result
    at hresolve ⊢
  obtain ⟨e | _ | step, w'⟩ := result
  · cases hresolve
  · cases hresolve
  · cases hresolve
    exact ⟨w', rfl, (List.cons.inj hjournal).2⟩

theorem Resolution.exists_asked (hbuilt : app.Built) (x : Resolution app r) :
    ∃ v, (x.step, v) ∈ asked (evalGuard app (callWithin app x.depth)) (app.model x.name)
        (x.start.runner r).working (x.start.runner r).actor x.type x.scope
        (app.model x.name).steps x.start ∧
      x.step.isReachedIn (evalGuard app (callWithin app x.depth)) (app.model x.name)
        (x.start.runner r).working v = true := by
  obtain ⟨after, hfound, -⟩ := x.found
  exact exists_asked_of_resolve (placed_of_build (hbuilt x.name)) (congrArg Prod.fst hfound)

theorem Resolution.mem_steps (hbuilt : app.Built) (x : Resolution app r) :
    x.step ∈ (app.model x.name).steps := by
  obtain ⟨v, hasked, -⟩ := x.exists_asked hbuilt
  exact (fits_of_mem_asked hasked).1

variable (app r) in
/-- What is noted is no resolution of the runner, or it is one that a session made. -/
def Witnesses (e : Event S) (before : List (Event S)) : Prop :=
  e.resolvedAt? r ≠ none → ∃ x : Resolution app r, x.event = e ∧ x.before = before

theorem witnesses_of_quiet {e : Event S} (he : e.resolvedAt? r = none) (before : List (Event S)) :
    Witnesses app r e before := fun hresolved => absurd he hresolved

theorem witnesses_of_foreign (e : Event S) (he : e.session? ≠ some r) (before : List (Event S)) :
    Witnesses app r e before :=
  witnesses_of_quiet (foreign_resolvedAt? he) before

end Resolution

/-! ## Calls resolve what can be reached -/

section Calls

variable {app : Application S} {r : RunnerId S} {name : S.ModelName}

theorem Offered.quiet {model : Model (code S)} {step : Step (code S)} {m : Message}
    {result : Except RunnerError Reacted} {events : List (Event S)}
    (h : Offered model r step m result events) : ∀ e ∈ events, e.resolvedAt? r = none := by
  cases h with
  | suppressed => simp [Event.resolvedAt?]
  | reacted raw state h => cases h <;> simp [Event.resolvedAt?]

/-- A resolution leaves the call as it is, or notes the step in the end. -/
theorem resolve_cases {calls : Calls S} (s : Session S)
    (hperform : ∀ q, Effect.Within (Undisturbed s.runner) (perform app calls q))
    (type : MessageType) (scope : Scope) (w : World S) :
    ∃ w', Undisturbed s.runner w w' ∧
      (((s.resolve app calls type scope).run w).2 = w' ∨
        ∃ step, (s.resolve app calls type scope).run w =
          (.ok (some step), w'.note (.resolved s.runner step.id scope
            (w.runner s.runner).working (w.runner s.runner).actor w.state))) := by
  have hundisturbed := (composes_undisturbed s.runner).sequential.resolution app calls hperform
    s.model (w.runner s.runner).working (w.runner s.runner).actor type scope w
  rw [Session.resolve_run]
  generalize (resolve (evalGuard app calls) s.model (w.runner s.runner).working
    (w.runner s.runner).actor type scope).run w = result at hundisturbed ⊢
  refine ⟨result.2, hundisturbed, ?_⟩
  obtain ⟨e | _ | step, w'⟩ := result
  · exact .inl rfl
  · exact .inl rfl
  · exact .inr ⟨step, rfl⟩

/-- A resolution is noted as what it is. -/
theorem resolve_witnesses {depth : Nat} {s : Session S} (hmodel : s.model = app.model name)
    (type : MessageType) (scope : Scope) {w : World S} (hpoised : Poised app s.runner name w)
    (h : Throughout (Witnesses app s.runner) w.journal) :
    Throughout (Witnesses app s.runner)
      ((s.resolve app (callWithin app depth) type scope).run w).2.journal := by
  obtain ⟨w', hundisturbed, hcases⟩ :=
    resolve_cases s (perform_undisturbed app s.runner depth) type scope w
  have hbusy := hpoised.engaged.busy
  have hthere : Throughout (Witnesses app s.runner) w'.journal :=
    hundisturbed.throughout witnesses_of_foreign hbusy h
  rcases hcases with hsame | ⟨step, hresolved⟩
  · rw [hsame]
    exact hthere
  · -- Guards may note something meanwhile, but nothing of this call.
    obtain ⟨asked, hjournal, hapart⟩ := hundisturbed hbusy
    let x : Resolution app s.runner :=
      { depth, session := s, name, type, scope, step, start := w, before := w'.journal
        runner := rfl
        model := hmodel
        bound := (hundisturbed.tells_same app hbusy).2.1.trans hpoised.bound
        busy := hbusy
        since := ⟨asked, hjournal, hapart.foreign⟩
        resolved := ⟨_, hresolved, rfl⟩ }
    rw [hresolved]
    exact hthere.note fun _ => ⟨x, rfl, rfl⟩

variable (r) in
theorem upheld_witnesses (hbuilt : app.Built) : Upheld app r (Witnesses app r) where
  foreign := witnesses_of_foreign
  outer e h := by
    refine witnesses_of_quiet ?_
    cases e <;> first | rfl | cases h
  parts depth name s hs hmodel := by
    subst hs
    have hperform := perform_undisturbed app s.runner depth
    have htold := hmodel ▸ parts_told app s hperform (hmodel ▸ placed_of_build (hbuilt name))
    refine ⟨fun type scope w => ⟨htold.resolve type scope w, resolve_witnesses hmodel type scope⟩,
      fun step hstep m w => ⟨htold.offer step hstep m w, fun hpoised h => ?_⟩,
      fun m w => ⟨htold.publish m w, fun hpoised h => ?_⟩⟩
    · exact ((offer_offered app s hperform false step m).mono fun _ events hoffered e he =>
        witnesses_of_quiet (hoffered.quiet e he)).throughout witnesses_of_foreign
          hpoised.engaged.busy h
    · refine ((publish_published app s hperform false m).mono fun _ events hpublished e he =>
        witnesses_of_quiet ?_).throughout witnesses_of_foreign hpoised.engaged.busy h
      cases hpublished <;> simp_all [Event.resolvedAt?]

/-- **Every resolution in a journal** was made by a session. -/
theorem witnessed_of_reachable (hbuilt : app.Built) {w : World S} (h : Reachable app w)
    (r : RunnerId S) : Throughout (Witnesses app r) w.journal :=
  (upheld_witnesses r hbuilt).of_reachable hbuilt h

/-- And so was every one that stands somewhere in it. -/
theorem exists_resolution (hbuilt : app.Built) {w : World S} (h : Reachable app w)
    {r : RunnerId S} {id : StepId} {scope : Scope} {c : Cursor} {actor : String} {state : S.State}
    {before : List (Event S)}
    (hsuffix : .resolved r id scope c actor state :: before <:+ w.journal) :
    ∃ x : Resolution app r, x.event = .resolved r id scope c actor state ∧ x.before = before :=
  witnessed_of_reachable hbuilt h r _ before hsuffix (by simp [Event.resolvedAt?])

end Calls

/-! ## What goes back to a resolution -/

section Back

variable {r : RunnerId S}

/-- The latest thing that a call noted of the runner, but quiet things, is a resolution of the
step. -/
def GoesBack (r : RunnerId S) (id : StepId) (earlier : List (Event S)) : Prop :=
  ∃ since before scope c actor state,
    earlier = since ++ .resolved r id scope c actor state :: before ∧
      ∀ e ∈ since, e.turn? r = none ∧ e.ran? r = none

theorem GoesBack.later {id : StepId} {e : Event S} {since before : List (Event S)}
    (h : GoesBack r id before) (hforeign : ∀ e ∈ since, e.session? ≠ some r)
    (hquiet : e.turn? r = none ∧ e.ran? r = none) : GoesBack r id (since ++ e :: before) := by
  obtain ⟨since', before', scope, c, actor, state, rfl, hquiet'⟩ := h
  refine ⟨since ++ e :: since', before', scope, c, actor, state, by simp, fun e' he' => ?_⟩
  rcases List.mem_append.mp he' with he' | he'
  · exact ⟨foreign_turn? (hforeign e' he'), foreign_ran? (hforeign e' he')⟩
  · rcases List.mem_cons.mp he' with rfl | he'
    · exact hquiet
    · exact hquiet' e' he'

variable {journal earlier : List (Event S)} {id : StepId} {m : Message}
  (h : Sequenced none (own r journal))
include h

/-- A step that is offered was resolved right before. -/
theorem Sequenced.offered (hsuffix : .offered r id m :: earlier <:+ journal) :
    ∃ since before scope c actor state,
      earlier = since ++ .resolved r id scope c actor state :: before ∧
        ∀ e ∈ since, e.session? ≠ some r := by
  obtain ⟨scope, c, actor, state, hlast⟩ := h.exists_before rfl hsuffix
  obtain ⟨since, before, rfl, hforeign⟩ := exists_latest hlast
  exact ⟨since, before, scope, c, actor, state, rfl, hforeign⟩

theorem Sequenced.triggered {raw : Output}
    (hsuffix : .triggered r id m raw :: earlier <:+ journal) : GoesBack r id earlier := by
  obtain ⟨since, before, rfl, hforeign⟩ := exists_latest (h.exists_before rfl hsuffix)
  obtain ⟨since', before', scope, c, actor, state, rfl, hforeign'⟩ :=
    h.offered ((List.suffix_append since _).trans ((List.suffix_cons _ _).trans hsuffix))
  refine GoesBack.later ⟨since', before', scope, c, actor, state, rfl, fun e he => ?_⟩ hforeign
    ⟨rfl, rfl⟩
  exact ⟨foreign_turn? (hforeign' e he), foreign_ran? (hforeign' e he)⟩

theorem Sequenced.reacted {output : Output} {state : S.State}
    (hsuffix : .reacted r id m output state :: earlier <:+ journal) : GoesBack r id earlier := by
  obtain ⟨raw, hlast⟩ := h.exists_before rfl hsuffix
  obtain ⟨since, before, rfl, hforeign⟩ := exists_latest hlast
  have hback := h.triggered
    ((List.suffix_append since _).trans ((List.suffix_cons _ _).trans hsuffix))
  exact hback.later hforeign ⟨rfl, rfl⟩

/-- A step that took its turn was resolved where the runner still was. -/
theorem Sequenced.moved {t : Turn} (hsuffix : .moved r t :: earlier <:+ journal) :
    GoesBack r t.step earlier := by
  obtain ⟨state, hlast⟩ := h.exists_before rfl hsuffix
  obtain ⟨since, before, rfl, hforeign⟩ := exists_latest hlast
  have hback := h.reacted
    ((List.suffix_append since _).trans ((List.suffix_cons _ _).trans hsuffix))
  exact hback.later hforeign ⟨rfl, rfl⟩

end Back

section Reachable

variable {app : Application S} (hbuilt : app.Built) {w : World S} (h : Reachable app w)
  (r : RunnerId S)
include hbuilt h

/-- **A step that took its turn could be reached** where it took it. -/
theorem reached_of_moved {t : Turn} {earlier : List (Event S)}
    (hsuffix : .moved r t :: earlier <:+ w.journal) :
    ∃ name step said, ranModel? r earlier = some name ∧
      (app.model name).step? t.step = some step ∧
        step.Reached (app.model name) (cursorAt app r earlier) said := by
  obtain ⟨since, before, scope, c, actor, state, rfl, hquiet⟩ :=
    (sequenced_of_reachable hbuilt h r).moved hsuffix
  have hresolved : .resolved r t.step scope c actor state :: before <:+ w.journal :=
    (List.suffix_append since _).trans ((List.suffix_cons _ _).trans hsuffix)
  obtain ⟨x, hevent, rfl⟩ := exists_resolution hbuilt h hresolved
  obtain ⟨-, hid, -, hc, -, -⟩ := Event.resolved.inj hevent
  obtain ⟨v, -, hreached⟩ := x.exists_asked hbuilt
  obtain ⟨-, hrecounted⟩ := recounted_of_reachable hbuilt h r
  have hall : ∀ e ∈ since ++ [.resolved r t.step scope c actor state],
      e.turn? r = none ∧ e.ran? r = none := by
    intro e he
    rcases List.mem_append.mp he with he | he
    · exact hquiet e he
    · exact List.mem_singleton.mp he ▸ ⟨rfl, rfl⟩
  have hturns : turns r (since ++ [.resolved r t.step scope c actor state]) = [] :=
    readOff_eq_nil_iff.mpr fun e he => (hall e he).1
  rw [List.append_cons, ranModel?_append r fun e he => (hall e he).2,
    cursorAt_append_of_quiet app hturns fun e he => (hall e he).2,
    ← hrecounted.faithful.resolved hresolved, ← hc, ← hid]
  exact ⟨x.name, x.step, _, x.bound,
    (placed_of_build (hbuilt x.name)).step?_self (x.mem_steps hbuilt),
    reached_of_isReachedIn hreached⟩

end Reachable

end UseCaseEngine
