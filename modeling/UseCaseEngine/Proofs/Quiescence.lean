import UseCaseEngine.Proofs.Preemption
import UseCaseEngine.Proofs.Untriggered

/-!
# Quiescence

A call goes on with system steps until none can react. System steps accept messages of every type,
so one that was left over would take the next message, whatever it is, or make it ambiguous. None is
left over: before a call ends, it looks for a step once more and finds none, and it leaves its
cursor where it stood then.

Out of scope: calls that fail, and calls in which a hook suppressed a step; these end without that
look.

* `isSystem_of_mem_candidates`: where no step can take a system event, no system step can take any
  message, unless steps stand in for each other in a circle.
* `take_of_ok`: a session looks for a step, and either it was the last time or a step is executed.
* `continueWith_lastLook`, `react_lastLook`, `begin_lastLook`: a session that does not fail, and
  whose hook suppresses no step, ends with a look that finds nothing.
* `quiescent_of_candidates`: when a runner is quiescent.
* **`quiescence_of_call`**: so is the runner of a call that does not fail.
-/

namespace UseCaseEngine

/-! ## Where no system step can react -/

section Model

variable {C : Code} (ν : C.Guard → Bool) {model : Model C} {c : Cursor} {actor : String}
  {type : MessageType} {scope : Scope}

/-- Steps that stand in for each other go round in a circle. -/
def Model.Circular (model : Model C) : Prop := ∃ s, Relation.TransGen model.StandsInFor s s

/-- If every step of a list has one in the list that stands in for it, they go round in a
circle. -/
theorem circular_of_standsIn {found : List (Step C)} (hne : found ≠ [])
    (h : ∀ s ∈ found, ∃ t ∈ found, model.StandsInFor t s) : model.Circular := by
  by_contra hacyclic
  obtain ⟨first, hfirst⟩ := List.exists_mem_of_ne_nil found hne
  have hlocal (s : Step C) : ¬ Relation.TransGen (Preempts model found) s s := fun hcircle =>
    hacyclic ⟨s, Relation.TransGen.mono (fun _ _ h => h.2.2) s s hcircle⟩
  obtain ⟨s, hs, hfree, -⟩ := exists_outermost hlocal hfirst
  obtain ⟨t, ht, hstandsIn⟩ := h s hs
  exact hfree t ht hstandsIn

/-- **Where nothing is left, nothing was found**, unless steps stand in for each other in a
circle. -/
theorem reachable_eq_nil_of_candidates (hplaced : model.Placed) (hacyclic : ¬ model.Circular)
    (h : (candidates (m := Id) ν model c actor type scope).run = Except.ok []) :
    (reachable (m := Id) ν model c actor type scope model.steps).run = Except.ok [] := by
  obtain ⟨found, hfound, hleft⟩ := mem_candidates ν h
  by_cases hnil : found = []
  · rw [hnil] at hfound
    exact hfound
  · refine absurd (circular_of_standsIn hnil fun s hs => ?_) hacyclic
    by_contra hnone
    refine List.not_mem_nil ((hleft s).mpr ⟨hs, fun t ht target hstands hid => ?_⟩)
    have hmodel := ((mem_reachable ν hfound s).mp hs).1
    exact hnone ⟨t, ht, hplaced.standsInFor_of_id hmodel hstands hid⟩

/-- **If no system event can be taken, no system step is among the candidates for any message.** -/
theorem isSystem_of_mem_candidates (hplaced : model.Placed) (hacyclic : ¬ model.Circular)
    (h : (candidates (m := Id) ν model c actor .systemEvent scope).run = Except.ok [])
    {left : List (Step C)}
    (hleft : (candidates (m := Id) ν model c actor type scope).run = Except.ok left)
    {s : Step C} (hs : s ∈ left) : s.isSystem = false := by
  by_contra hsystem
  rw [Bool.not_eq_false] at hsystem
  have hnil := reachable_eq_nil_of_candidates ν hplaced hacyclic h
  obtain ⟨found, hfound, hmem⟩ := mem_candidates ν hleft
  obtain ⟨hmodel, ⟨hadmits, hopen, -⟩, hreachable⟩ :=
    (mem_reachable ν hfound s).mp ((hmem s).mp hs).1
  have hexpects : s.expects .systemEvent = true := by
    unfold Step.expects
    rw [Option.isNone_iff_eq_none.mp hsystem]
  exact List.not_mem_nil
    ((mem_reachable ν hnil s).mpr ⟨hmodel, ⟨hadmits, hopen, hexpects⟩, hreachable⟩)

end Model

/-! ## Steps that are not suppressed -/

variable {S : Signature}

section Rules

variable {model : Model (code S)} {r : RunnerId S} {step : Step (code S)} {m : Message}
  {events : List (Event S)}

/-- A step that is offered something is triggered unless it is suppressed. -/
theorem Offered.unhindered {result : Except RunnerError Reacted}
    (h : Offered model r step m result events) (hresult : result ≠ .ok .suppressed) :
    events.filterMap (Event.offer? r) = events.filterMap (Event.trigger? r) := by
  rw [h.offers.1]
  cases h with
  | suppressed => exact absurd rfl hresult
  | reacted raw state h =>
    rw [List.filterMap_append, h.triggers]
    simp [Event.trigger?, List.filterMap_cons]

theorem Executed.unhindered {message : Option Message}
    (h : Executed model r step m (.ok (some message)) events) :
    events.filterMap (Event.offer? r) = events.filterMap (Event.trigger? r) := by
  generalize hresult : (Except.ok (some message) : Except RunnerError (Option (Option Message))) =
    result at h
  cases h with
  | broken h => cases hresult
  | suppressed h => cases hresult
  | published h => exact h.unhindered nofun
  | uncaught hhandler h => cases hresult
  | failed hhandler hoffered h =>
    rw [List.filterMap_append, List.filterMap_append, hoffered.unhindered nofun]
    cases h with
    | handled hfound hhandled =>
      rw [List.filterMap_append, List.filterMap_append, hhandled.unhindered nofun, hfound.offers,
        hfound.triggers]
    | _ => cases hresult

/-- A step that was executed and came to nothing was suppressed. -/
theorem Executed.eq_offered (h : Executed model r step m (.ok none) events) :
    events = [.offered r step.id m] := by
  generalize hresult : (Except.ok none : Except RunnerError (Option (Option Message))) = result at h
  cases h with
  | broken h => cases hresult
  | suppressed h =>
    generalize hsuppressed : (Except.ok Reacted.suppressed : Except RunnerError Reacted) = reacted
      at h
    cases h with
    | suppressed => rfl
    | reacted raw state h =>
      cases h with
      | delivered hrefers hinbox message answers reply => cases reply <;> cases hsuppressed
      | _ => cases hsuppressed
  | published h => cases hresult
  | uncaught hhandler h => cases hresult
  | @failed failure result offered handled hhandler hoffered h => cases result <;> cases hresult

end Rules

/-- Each step of the runner that was offered something meanwhile was triggered: none was
suppressed. -/
def Unhindered (r : RunnerId S) (w w' : World S) : Prop :=
  ∃ events, w'.journal = events ++ w.journal ∧ offers r events = triggers r events

section Unhindered

variable {r : RunnerId S} {w w₁ w' : World S}

theorem Unhindered.trans (h : Unhindered r w w₁) (h' : Unhindered r w₁ w') : Unhindered r w w' := by
  obtain ⟨old, hold, hfirst⟩ := h
  obtain ⟨new, hnew, hrest⟩ := h'
  refine ⟨new ++ old, by rw [hnew, hold, List.append_assoc], ?_⟩
  unfold offers triggers at hfirst hrest ⊢
  rw [readOff_append, readOff_append, hfirst, hrest]

/-- What came first does not matter to what came later. -/
theorem Unhindered.rest (h : Unhindered r w w') (hfirst : Unhindered r w w₁)
    (hgrows : Grows w₁ w') : Unhindered r w₁ w' := by
  obtain ⟨events, hevents, hall⟩ := h
  obtain ⟨old, hold, hfirst⟩ := hfirst
  obtain ⟨new, hnew⟩ := hgrows
  rw [← hnew, hold, ← List.append_assoc] at hevents
  refine ⟨new, hnew.symm, ?_⟩
  rw [← List.append_cancel_right hevents] at hall
  unfold offers triggers at hall hfirst ⊢
  rw [readOff_append, readOff_append, hfirst] at hall
  exact List.append_cancel_left hall

/-- Nor does what came later matter to what came first. -/
theorem Unhindered.front (h : Unhindered r w w') (hrest : Unhindered r w₁ w')
    (hgrows : Grows w w₁) : Unhindered r w w₁ := by
  obtain ⟨events, hevents, hall⟩ := h
  obtain ⟨new, hnew, hrest⟩ := hrest
  obtain ⟨old, hold⟩ := hgrows
  rw [hnew, ← hold, ← List.append_assoc] at hevents
  refine ⟨old, hold.symm, ?_⟩
  rw [← List.append_cancel_right hevents] at hall
  unfold offers triggers at hall hrest ⊢
  rw [readOff_append, readOff_append, hrest] at hall
  exact List.append_cancel_right hall

theorem unhindered_of_own {events : List (Event S)} (hjournal : w'.journal = events ++ w.journal)
    (h : (own r events).filterMap (Event.offer? r) = (own r events).filterMap (Event.trigger? r)) :
    Unhindered r w w' := by
  refine ⟨events, hjournal, ?_⟩
  rw [offers_own, triggers_own]
  exact h

end Unhindered

/-! ## The last look -/

section Session

variable (app : Application S) (calls : Calls S) (s : Session S)

/-- Looks for a step that takes the message, and executes it. If no step is executed, nothing
follows but what it gives then. -/
def Session.take (m : Message) (otherwise : Option Message)
    (next : Option Message → Attempt S (Option Message)) : Attempt S (Option Message) := do
  match ← s.resolve app calls m.type .normal with
  | none => return otherwise
  | some step =>
    match ← s.execute app calls step m with
    | none => return otherwise
    | some message => next message

/-- Gives what is pending to the publisher. -/
def Session.release : Option Message → Effect S Unit
  | some previous => s.publish app calls previous
  | none => pure ()

theorem Session.react_eq_take (m : Message) :
    s.react app calls m = s.take app calls m none (s.continueWith app calls s.limit) := rfl

theorem Session.continueWith_eq_take (left : Nat) (pending : Option Message) :
    s.continueWith app calls (left + 1) pending =
      s.take app calls .systemEvent pending (fun message => do
        s.release app calls pending
        s.continueWith app calls left message) := by
  conv_lhs => unfold Session.continueWith
  unfold Session.take
  refine congrArg (s.resolve app calls .systemEvent .normal >>= ·) ?_
  funext found
  cases found with
  | none => rfl
  | some step =>
    refine congrArg (s.execute app calls step .systemEvent >>= ·) ?_
    funext executed
    cases executed <;> cases pending <;> rfl

/-- The world in which a session looks for a step the last time: the one in which it looks for a
step that takes the message, unless such a step is executed; then it looks for others. -/
def Session.lookFrom (m : Message) (next : Option Message → World S → World S) (w : World S) :
    World S :=
  match (s.resolve app calls m.type .normal).run w with
  | (.ok (some step), w₁) =>
    match (s.execute app calls step m).run w₁ with
    | (.ok (some message), w₂) => next message w₂
    | _ => w
  | _ => w

/-- The world in which a session that goes on with system steps looks for one the last time. -/
def Session.lastLook : Nat → Option Message → World S → World S
  | 0, _, w => w
  | left + 1, pending, w =>
    s.lookFrom app calls .systemEvent
      (fun message w => Session.lastLook left message (s.release app calls pending w).2) w

/-- The world in which a session that reacts to a message looks for a step the last time. -/
def Session.lastLookOn (m : Message) (w : World S) : World S :=
  s.lookFrom app calls m (s.lastLook app calls s.limit) w

namespace Session.Parts

variable {app calls s} {R : World S → World S → Prop} (hR : Composes R)
  (h : s.Parts app calls (Effect.Within R))
include hR h

theorem release (pending : Option Message) : Effect.Within R (s.release app calls pending) := by
  cases pending with
  | none => exact Effect.within_pure hR ()
  | some previous => exact h.publish previous

theorem lookFrom (m : Message) {next : Option Message → World S → World S}
    (hnext : ∀ message w, R w (next message w)) (w : World S) :
    R w (s.lookFrom app calls m next w) := by
  have hresolve := h.resolve m.type .normal w
  have hmem (step : Step (code S)) (hstep : ((s.resolve app calls m.type .normal).run w).1 =
      .ok (some step)) := (eligible_of_resolve app calls s hstep).1
  unfold Session.lookFrom
  generalize (s.resolve app calls m.type .normal).run w = found at hresolve hmem ⊢
  obtain ⟨e | _ | step, w₁⟩ := found
  · exact hR.refl w
  · exact hR.refl w
  have hexecute := h.execute hR.sequential (hmem step rfl) m w₁
  dsimp only
  generalize (s.execute app calls step m).run w₁ = executed at hexecute ⊢
  obtain ⟨e | _ | message, w₂⟩ := executed
  · exact hR.refl w
  · exact hR.refl w
  exact hR.trans hresolve (hR.trans hexecute (hnext message w₂))

/-- What holds of the parts of a session holds until it looks for a step the last time. -/
theorem lastLook (left : Nat) (pending : Option Message) (w : World S) :
    R w (s.lastLook app calls left pending w) := by
  induction left generalizing pending w with
  | zero => exact hR.refl w
  | succ left ih =>
    exact h.lookFrom hR .systemEvent (fun message w => hR.trans (h.release hR pending w) (ih _ _)) w

theorem lastLookOn (m : Message) (w : World S) : R w (s.lastLookOn app calls m w) :=
  h.lookFrom hR m (h.lastLook hR s.limit) w

end Session.Parts

variable {app calls s}

/-- What a session does about the step that takes the message. -/
theorem take_of_resolve {m : Message} {otherwise : Option Message}
    {next : Option Message → Attempt S (Option Message)} {step : Step (code S)} {w w₁ : World S}
    (h : (s.resolve app calls m.type .normal).run w = (.ok (some step), w₁)) :
    (s.take app calls m otherwise next).run w =
      (do
        match ← s.execute app calls step m with
        | none => return otherwise
        | some message => next message : Attempt S (Option Message)).run w₁ := by
  unfold Session.take
  rw [Attempt.run_bind, h]
  rfl

/-- A session that begins a run gives what is pending in the end to the publisher. -/
theorem begin_of_continueWith {w w' : World S} {pending : Option Message}
    (h : (s.continueWith app calls s.limit none).run w = (.ok pending, w')) :
    (s.begin app calls).run w = (.ok none, (s.release app calls pending w').2) := by
  unfold Session.begin
  rw [Attempt.run_bind, h]
  cases pending <;> rfl

variable (hperform : ∀ q, Effect.Within (Undisturbed s.runner) (perform app calls q))
include hperform

section Segment

variable {type : MessageType} {scope : Scope} {step : Step (code S)} {m : Message}
  {w w₁ w₂ : World S} (hready : Ready s.runner false w)
  (hresolve : (s.resolve app calls type scope).run w = (.ok (some step), w₁))
include hready hresolve

theorem executed_unhindered {message : Option Message}
    (hexecute : (s.execute app calls step m).run w₁ = (.ok (some message), w₂)) :
    Ready s.runner false w₂ ∧ Unhindered s.runner w w₂ := by
  obtain ⟨hready₁, old, hold, hfound⟩ := resolve_found app s hperform false type scope w hready
  rw [hresolve] at hready₁ hold hfound
  obtain ⟨hready₂, new, hnew, hexecuted⟩ := execute_executed app s hperform false step m w₁ hready₁
  rw [hexecute] at hready₂ hnew hexecuted
  refine ⟨hready₂, (unhindered_of_own hold ?_).trans (unhindered_of_own hnew hexecuted.unhindered)⟩
  rw [hfound.offers, hfound.triggers]

theorem not_unhindered_of_suppressed
    (hexecute : (s.execute app calls step m).run w₁ = (.ok none, w₂)) :
    ¬ Unhindered s.runner w w₂ := by
  obtain ⟨hready₁, old, hold, hfound⟩ := resolve_found app s hperform false type scope w hready
  rw [hresolve] at hready₁ hold hfound
  obtain ⟨-, new, hnew, hexecuted⟩ := execute_executed app s hperform false step m w₁ hready₁
  rw [hexecute] at hnew hexecuted
  rintro ⟨events, hevents, hall⟩
  rw [hnew, hold, ← List.append_assoc] at hevents
  rw [← List.append_cancel_right hevents, offers_own, triggers_own, own_append,
    hexecuted.eq_offered, List.filterMap_append, List.filterMap_append, hfound.offers,
    hfound.triggers] at hall
  simp [Event.offer?, Event.trigger?, List.filterMap_cons] at hall

end Segment

theorem release_unhindered {w : World S} (hready : Ready s.runner false w)
    (pending : Option Message) :
    Ready s.runner false (s.release app calls pending w).2 ∧
      Unhindered s.runner w (s.release app calls pending w).2 := by
  cases pending with
  | none => exact ⟨hready, [], rfl, rfl⟩
  | some previous =>
    obtain ⟨hready', events, hjournal, hpublished⟩ :=
      publish_published app s hperform false previous w hready
    refine ⟨hready', unhindered_of_own hjournal ?_⟩
    rw [hpublished.offers, hpublished.triggers]

/-- **What an attempt to take a message comes to**, if it does not fail and is not hindered: no step
was found and this was the last look, or a step was executed and something follows. -/
theorem take_of_ok {m : Message} {otherwise : Option Message}
    {next : Option Message → Attempt S (Option Message)} {w : World S}
    (hready : Ready s.runner false w) {returned : Option Message}
    (hok : ((s.take app calls m otherwise next).run w).1 = .ok returned)
    (hunhindered : Unhindered s.runner w ((s.take app calls m otherwise next).run w).2) :
    ((s.resolve app calls m.type .normal).run w =
        (.ok none, ((s.take app calls m otherwise next).run w).2) ∧
      ∀ look, s.lookFrom app calls m look w = w) ∨
    ∃ message w', Ready s.runner false w' ∧ Unhindered s.runner w w' ∧
      (s.take app calls m otherwise next).run w = (next message).run w' ∧
      ∀ look, s.lookFrom app calls m look w = look message w' := by
  unfold Session.lookFrom
  cases hresolve : (s.resolve app calls m.type .normal).run w with
  | mk found w₁ =>
  rcases found with e | _ | step
  · unfold Session.take at hok
    rw [Attempt.run_bind, hresolve] at hok
    cases hok
  · unfold Session.take
    rw [Attempt.run_bind, hresolve]
    exact .inl ⟨rfl, fun _ => rfl⟩
  dsimp only
  rw [take_of_resolve hresolve, Attempt.run_bind] at hok hunhindered ⊢
  cases hexecute : (s.execute app calls step m).run w₁ with
  | mk executed w₂ =>
  rw [hexecute] at hok hunhindered
  rcases executed with e | _ | message
  · cases hok
  · exact absurd hunhindered (not_unhindered_of_suppressed hperform hready hresolve hexecute)
  obtain ⟨hready₂, hexecuted⟩ := executed_unhindered hperform hready hresolve hexecute
  exact .inr ⟨message, w₂, hready₂, hexecuted, rfl, fun _ => rfl⟩

variable (hgrows : ∀ r c, Effect.Within Grows (calls r c))
include hgrows

/-- **A session that goes on, does not fail and is not hindered ends with a look that finds
nothing**, by induction on the steps that it may execute. -/
theorem continueWith_lastLook {w : World S} (hready : Ready s.runner false w) (left : Nat)
    (pending : Option Message) {returned : Option Message}
    (hok : ((s.continueWith app calls left pending).run w).1 = .ok returned)
    (hunhindered : Unhindered s.runner w ((s.continueWith app calls left pending).run w).2) :
    (s.resolve app calls .systemEvent .normal).run (s.lastLook app calls left pending w) =
      (.ok none, ((s.continueWith app calls left pending).run w).2) := by
  have hparts := s.parts_grows app hgrows
  induction left generalizing pending w with
  | zero =>
    unfold Session.continueWith at hok ⊢
    rw [Attempt.run_bind] at hok ⊢
    unfold Session.lastLook
    generalize (s.resolve app calls .systemEvent .normal).run w = found at hok ⊢
    obtain ⟨e | _ | step, w₁⟩ := found
    · cases hok
    · rfl
    · cases hok
  | succ left ih =>
    rw [Session.continueWith_eq_take] at hok hunhindered ⊢
    unfold Session.lastLook
    rcases take_of_ok hperform hready hok hunhindered with
      ⟨hnothing, hlook⟩ | ⟨message, w₂, hready₂, hexecuted, htake, hlook⟩
    · rw [hlook]
      exact hnothing
    · obtain ⟨hready₃, hreleased⟩ := release_unhindered hperform hready₂ pending
      rw [htake, Attempt.run_lift_bind] at hok hunhindered ⊢
      rw [hlook]
      exact ih hready₃ message hok (hunhindered.rest (hexecuted.trans hreleased)
        (hparts.continueWith composes_grows.sequential left message _))

/-- So does a session that reacts, if a step is triggered. -/
theorem react_lastLook {w : World S} (hready : Ready s.runner false w) (m : Message)
    {returned : Option Message} (hok : ((s.react app calls m).run w).1 = .ok returned)
    (hunhindered : Unhindered s.runner w ((s.react app calls m).run w).2)
    (htriggered : ¬ Untriggered s.runner w ((s.react app calls m).run w).2) :
    (s.resolve app calls .systemEvent .normal).run (s.lastLookOn app calls m w) =
      (.ok none, ((s.react app calls m).run w).2) := by
  have hparts := s.parts_grows app hgrows
  rw [Session.react_eq_take] at hok hunhindered htriggered ⊢
  unfold Session.lastLookOn
  rcases take_of_ok hperform hready hok hunhindered with
    ⟨hnothing, -⟩ | ⟨message, w₂, hready₂, hexecuted, htake, hlook⟩
  · obtain ⟨-, events, hevents, hfound⟩ :=
      resolve_found app s hperform false m.type .normal w hready
    rw [hnothing] at hevents
    exact absurd ⟨events, hevents, (triggers_own _ _).trans hfound.triggers⟩ htriggered
  · rw [htake] at hok hunhindered ⊢
    rw [hlook]
    have hgrows₂ := hparts.continueWith composes_grows.sequential s.limit message w₂
    exact continueWith_lastLook hperform hgrows hready₂ s.limit message hok
      (hunhindered.rest hexecuted hgrows₂)

/-- So does a session that begins a run; what is pending goes to the publisher then. -/
theorem begin_lastLook {w : World S} (hready : Ready s.runner false w)
    {returned : Option Message} (hok : ((s.begin app calls).run w).1 = .ok returned)
    (hunhindered : Unhindered s.runner w ((s.begin app calls).run w).2) :
    ∃ pending w', (s.resolve app calls .systemEvent .normal).run
        (s.lastLook app calls s.limit none w) = (.ok none, w') ∧
      ((s.begin app calls).run w).2 = (s.release app calls pending w').2 := by
  have hparts := s.parts_grows app hgrows
  have hcontinued := hparts.continueWith composes_grows.sequential s.limit none w
  obtain ⟨hready', -⟩ := continueWith_continued app s hperform false s.limit none w hready
  have hlook (message : Option Message)
      (h : ((s.continueWith app calls s.limit none).run w).1 = .ok message) :=
    continueWith_lastLook hperform hgrows hready s.limit none h
  rcases hend : (s.continueWith app calls s.limit none).run w with ⟨e | pending, w'⟩
  · unfold Session.begin at hok
    rw [Attempt.run_bind, hend] at hok
    cases hok
  rw [hend] at hcontinued hready' hlook
  rw [begin_of_continueWith hend] at hunhindered ⊢
  obtain ⟨-, hreleased⟩ := release_unhindered hperform hready' pending
  exact ⟨pending, w', hlook pending rfl (hunhindered.front hreleased hcontinued), rfl⟩

end Session

/-! ## Quiescent runners -/

/-- No step of the runner can take a system event, so nothing comes of one. System steps do not get
in the way of other messages either, unless steps stand in for each other in a circle. -/
structure Quiescent (app : Application S) (depth : Nat) (r : RunnerId S) (name : S.ModelName)
    (w : World S) : Prop where
  resolve : (resolve (evalGuard app (callWithin app (depth + 1))) (app.model name)
    (w.runner r).cursor (w.runner r).actor .systemEvent .normal).run w = (.ok none, w)
  quiet : (callWithin app (depth + 1) r (.react .systemEvent) w).1 = .ok none
  still : ∃ working, (callWithin app (depth + 1) r (.react .systemEvent) w).2.runner r =
    { w.runner r with working }
  candidates : ¬ (app.model name).Circular → ∀ type left,
    ((candidates (evalGuard app (callWithin app (depth + 1))) (app.model name)
      (w.runner r).cursor (w.runner r).actor type .normal).run w).1 = .ok left →
        ∀ step ∈ left, step.isSystem = false

section Quiescent

variable {app : Application S} {depth : Nat} {r : RunnerId S} {w : World S}

/-- A reaction comes to nothing where nothing is found. -/
theorem callWithin_of_found {m : Message} (hidle : (w.runner r).activity = .idle)
    {name : S.ModelName} (hmodel : (w.runner r).model = some name)
    (h : (candidates (evalGuard app (callWithin app depth)) (app.model name) (w.runner r).cursor
      (w.runner r).actor m.type .normal).run
        (w.inCall r .resolving (w.runner r).cursor [.entered r]) =
      (.ok [], w.inCall r .resolving (w.runner r).cursor [.entered r])) :
    (callWithin app (depth + 1) r (.react m) w).1 = .ok none ∧
      ∃ working, (callWithin app (depth + 1) r (.react m) w).2.runner r =
        { w.runner r with working } := by
  have hrunner := World.runner_inCall r .resolving (w.runner r).cursor [.entered r] w
  by_cases hrunning : (w.runner r).running = true
  · have hreact := Session.react_of_candidates app ((w.runner r).session app r name)
      (callWithin app depth) m (w.inCall r .resolving (w.runner r).cursor [.entered r]) (.ok [])
      (by
        rw [show ((w.runner r).session app r name).runner = r from rfl, hrunner]
        exact h)
    rw [callWithin_react app depth m hidle hrunning hmodel, hreact]
    refine ⟨rfl, (w.runner r).cursor, ?_⟩
    rw [World.runner_left, hrunner, ← hidle]
  · rw [callWithin_of_inactive app depth m hidle (.inl (Bool.not_eq_true _ ▸ hrunning))]
    exact ⟨rfl, _, w.runner_entered_left hidle⟩

/-- **A runner is quiescent** if with fixed answers of its guards no step can take a system
event. -/
theorem quiescent_of_candidates {name : S.ModelName} (hplaced : (app.model name).Placed)
    (hidle : (w.runner r).activity = .idle) (hmodel : (w.runner r).model = some name)
    {ν : Guard S → Bool} (hguards : ∀ g, (app.model name).HasGuard g →
      evalGuard app (callWithin app (depth + 1)) g w = (ν g, w))
    (hnone : (candidates (m := Id) ν (app.model name) (w.runner r).cursor (w.runner r).actor
      .systemEvent .normal).run = Except.ok []) : Quiescent app depth r name w := by
  have hquiet (g : Guard S) (hg : (app.model name).HasGuard g) := congrArg Prod.snd (hguards g hg)
  have hsame (g : Guard S) (hg : (app.model name).HasGuard g) := congrArg Prod.fst (hguards g hg)
  have hfixed (type : MessageType) : (candidates (evalGuard app (callWithin app (depth + 1)))
      (app.model name) (w.runner r).cursor (w.runner r).actor type .normal).run w =
        ((candidates (m := Id) ν (app.model name) (w.runner r).cursor (w.runner r).actor type
          .normal).run, w) := by
    rw [candidates_of_quiet _ _ _ _ hquiet, candidates_congr _ _ _ _ hsame]
  have hkeep : GuardsKeep app (callWithin app (depth + 1)) r w := by
    intro name' hname g hg
    obtain rfl : name = name' := Option.some.inj (hmodel.symm.trans hname)
    exact hquiet g hg
  obtain ⟨found, hasked, hfound, -⟩ := exists_found hkeep hmodel .systemEvent [.entered r]
  obtain rfl : found = .ok [] := by
    rw [inquire_of_quiet hkeep hmodel, candidates_congr _ _ _ _ hsame, hnone] at hasked
    rcases found with e | _ | ⟨step, rest⟩
    · cases hasked
    · rfl
    · cases hasked
  obtain ⟨hreaction, hstill⟩ := callWithin_of_found (m := .systemEvent) hidle hmodel hfound
  refine ⟨?_, hreaction, hstill, fun hacyclic type left hleft step hstep => ?_⟩
  · unfold UseCaseEngine.resolve
    rw [Attempt.run_bind, hfixed, hnone]
    rfl
  · rw [hfixed] at hleft
    exact isSystem_of_mem_candidates ν hplaced hacyclic hnone hleft hstep

end Quiescent

/-! ## Whole calls -/

/-- The world in which a call on the runner looks for a step the last time, if one reacts. -/
def Call.lastLook (app : Application S) (calls : Calls S) (r : RunnerId S) (w : World S) :
    Call S → World S
  | .react m =>
    match (w.runner r).model with
    | some name =>
      let (s, w₁) := openSession app r name (w.entered r)
      s.lastLookOn app calls m w₁
    | none => w
  | .run name =>
    let (s, w₁) := openSession app r name (recordFromStart r ((w.entered r).started r name)).2
    s.lastLook app calls s.limit none w₁

/-- The runner is as a call left it, and the actor acts who acted at the call's last look. Guards
answer as they did then, and evaluating them does nothing. -/
structure AsLastSeen (app : Application S) (depth : Nat) (r : RunnerId S) (name : S.ModelName)
    (look left w : World S) : Prop where
  idle : (w.runner r).activity = .idle
  model : (w.runner r).model = some name
  cursor : (w.runner r).cursor = (left.runner r).cursor
  actor : (w.runner r).actor = (look.runner r).actor
  guards : ∀ g, (app.model name).HasGuard g → evalGuard app (callWithin app (depth + 1)) g w =
    ((evalGuard app (callWithin app depth) g look).1, w)

section Call

variable {app : Application S} {depth : Nat} {r : RunnerId S} {w : World S}

/-- A call is not hindered if nothing between its being entered and left is. -/
theorem unhindered_of_left {w₁ w' : World S} (hentered : w₁.journal = .entered r :: w.journal)
    (h : Grows w₁ w') {events : List (Event S)}
    (hjournal : (w'.left r).journal = events ++ w.journal)
    (hunhindered : offers r events = triggers r events) : Unhindered r w₁ w' := by
  obtain ⟨since, hsince, hleft⟩ := exists_between hentered h
  rw [hleft] at hjournal
  rw [← List.append_cancel_right hjournal] at hunhindered
  refine ⟨since, hsince, ?_⟩
  simpa [offers, triggers, readOff, List.filterMap_cons, Event.offer?, Event.trigger?]
    using hunhindered

/-- A session of a call on a model ended with a look that found nothing. What was pending then went
to the publisher. -/
structure Session.EndsWithLook (app : Application S) (calls : Calls S) (s : Session S)
    (name : S.ModelName) (pending : Option Message) (look left : World S) : Prop where
  model : s.model = app.model name
  bound : (look.runner s.runner).model = some name
  engaged : Engaged (look.runner s.runner)
  nothing : ∃ w, (s.resolve app calls .systemEvent .normal).run look = (.ok none, w) ∧
    left = (s.release app calls pending w).2

theorem reactTo_lastLook (hbuilt : app.Built) (m : Message) {returned : Option Message}
    (hok : ((reactTo app (callWithin app depth) r m).run (w.entered r)).1 = .ok returned)
    (hunhindered : Unhindered r (w.entered r)
      ((reactTo app (callWithin app depth) r m).run (w.entered r)).2)
    (htriggered : ¬ Untriggered r (w.entered r)
      ((reactTo app (callWithin app depth) r m).run (w.entered r)).2) :
    ∃ name, ∃ s : Session S, (w.runner r).model = some name ∧ s.runner = r ∧
      s.EndsWithLook app (callWithin app depth) name none
        (Call.lastLook app (callWithin app depth) r w (.react m))
        ((reactTo app (callWithin app depth) r m).run (w.entered r)).2 := by
  rcases ((w.entered r).runner r).inactive_or with hinactive | ⟨hrunning, name, hmodel⟩
  · rw [reactTo_of_inactive hinactive] at htriggered
    exact absurd ((composes_untriggered r).refl _) htriggered
  · obtain ⟨s, w₁, hopen, rfl, hsmodel, hjournal, hrunner⟩ :=
      exists_openSession app (w.entered r) name (r := r)
    have hbound : (w.runner s.runner).model = some name := by
      rw [World.runner_entered] at hmodel
      exact hmodel
    have hbusy := w.entered_busy s.runner
    have hready : Ready s.runner false w₁ := ⟨by rw [hrunner]; exact hbusy, nofun⟩
    have hreact : (reactTo app (callWithin app depth) s.runner m).run (w.entered s.runner) =
        (s.react app (callWithin app depth) m).run w₁ := by
      rw [reactTo_of_running hrunning hmodel, Attempt.run_lift_bind, hopen]
    have hlook : Call.lastLook app (callWithin app depth) s.runner w (.react m) =
        s.lastLookOn app (callWithin app depth) m w₁ := by
      unfold Call.lastLook
      dsimp only
      rw [hbound]
      dsimp only
      rw [hopen]
    have hperform := perform_undisturbed app s.runner depth
    have hplaced : s.model.Placed := hsmodel ▸ placed_of_build (hbuilt name)
    -- Both the call and its last look are now those of the session from where it was opened.
    rw [hreact] at hok hunhindered htriggered ⊢
    rw [hlook]
    have hnothing := react_lastLook hperform (callWithin_grows app depth) hready m hok
      (by unfold Unhindered; rw [hjournal]; exact hunhindered)
      (by unfold Untriggered; rw [hjournal]; exact htriggered)
    obtain ⟨hengaged, hsame, -⟩ := (parts_told app s hperform hplaced).lastLookOn
      (composes_told s.model s.runner) m w₁ (by rw [hrunner]; exact ⟨hbusy, rfl⟩)
    refine ⟨name, s, hbound, rfl, hsmodel, ?_, hengaged, _, hnothing, rfl⟩
    rw [hsame, hrunner]
    exact hmodel

/-- Until a run opens its session, no step of the runner is offered anything. -/
theorem started_unhindered (app : Application S) (depth : Nat) (name : S.ModelName) {w : World S}
    (hbusy : (w.runner r).activity ≠ .idle) :
    ((recordFromStart r (w.started r name)).2.runner r).activity ≠ .idle ∧
      ((recordFromStart r (w.started r name)).2.runner r).model = some name ∧
      Unhindered r w (recordFromStart r (w.started r name)).2 := by
  have hstarted : ((w.started r name).runner r).activity ≠ .idle := by
    rw [World.runner_started]
    exact hbusy
  obtain ⟨events, hevents, hapart⟩ := (composes_undisturbed r).sequential.recordFromStart app
    (callWithin app depth) (perform_undisturbed app r depth) r (w.started r name) hstarted
  refine ⟨?_, ?_, ?_⟩
  · rw [hapart.session.activity]
    exact hstarted
  · rw [hapart.session.model, World.runner_started]
  · have hjournal : (w.started r name).journal = [.ran r name] ++ w.journal := rfl
    have hran : Unhindered r w (w.started r name) := by
      refine unhindered_of_own hjournal ?_
      rw [own_singleton rfl]
      rfl
    refine hran.trans (unhindered_of_own hevents ?_)
    rw [own_of_foreign hapart.foreign]
    rfl

theorem runModel_lastLook (hbuilt : app.Built) (name : S.ModelName) {returned : Option Message}
    (hok : ((runModel app (callWithin app depth) r name).run (w.entered r)).1 = .ok returned)
    (hunhindered : Unhindered r (w.entered r)
      ((runModel app (callWithin app depth) r name).run (w.entered r)).2) :
    ∃ pending, ∃ s : Session S, s.runner = r ∧
      s.EndsWithLook app (callWithin app depth) name pending
        (Call.lastLook app (callWithin app depth) r w (.run name))
        ((runModel app (callWithin app depth) r name).run (w.entered r)).2 := by
  have hperform := perform_undisturbed app r depth
  have hgrows := callWithin_grows app depth
  obtain ⟨hbusy, hbound, hopening⟩ := started_unhindered app depth name (w.entered_busy r)
  rw [runModel_eq] at hok hunhindered ⊢
  unfold Call.lastLook
  dsimp only
  generalize (recordFromStart r ((w.entered r).started r name)).2 = w₀
    at hbusy hbound hopening hok hunhindered ⊢
  obtain ⟨s, w₁, hopen, rfl, hsmodel, hjournal, hrunner⟩ := exists_openSession app w₀ name (r := r)
  rw [Attempt.run_lift_bind, hopen] at hok hunhindered ⊢
  dsimp only
  have hready : Ready s.runner false w₁ := ⟨by rw [hrunner]; exact hbusy, nofun⟩
  have hopened : Unhindered s.runner (w.entered s.runner) w₁ := by
    unfold Unhindered
    rw [hjournal]
    exact hopening
  obtain ⟨pending, w', hnothing, hfinal⟩ := begin_lastLook hperform hgrows hready hok
    (hunhindered.rest hopened ((s.parts_grows app hgrows).begin composes_grows.sequential w₁))
  have hplaced : s.model.Placed := hsmodel ▸ placed_of_build (hbuilt name)
  obtain ⟨hengaged, hsame, -⟩ := (parts_told app s hperform hplaced).lastLook
    (composes_told s.model s.runner) s.limit none w₁ (by rw [hrunner]; exact ⟨hbusy, rfl⟩)
  refine ⟨pending, s, rfl, hsmodel, ?_, hengaged, w', hnothing, hfinal⟩
  rw [hsame, hrunner]
  exact hbound

/-- A look that finds nothing, where guards do nothing, does nothing. -/
theorem candidates_of_resolve {calls : Calls S} {s : Session S} {look w' : World S}
    (hquiet : ∀ g, s.model.HasGuard g → (evalGuard app calls g look).2 = look)
    (h : (s.resolve app calls .systemEvent .normal).run look = (.ok none, w')) :
    w' = look ∧ (candidates (m := Id) (fun g => (evalGuard app calls g look).1) s.model
      (look.runner s.runner).working (look.runner s.runner).actor .systemEvent .normal).run =
        Except.ok [] := by
  rw [resolve_of_candidates, candidates_of_quiet _ _ _ _ hquiet] at h
  generalize (candidates (m := Id) (fun g => (evalGuard app calls g look).1) s.model
    (look.runner s.runner).working (look.runner s.runner).actor .systemEvent .normal).run = found
    at h ⊢
  rcases found with e | _ | ⟨step, _ | ⟨other, rest⟩⟩
  · cases h
  · cases h
    exact ⟨rfl, rfl⟩
  · cases h
  · cases h

/-- The publisher does not disturb the call. -/
theorem release_sameSession {calls : Calls S} {s : Session S}
    (hperform : ∀ q, Effect.Within (Undisturbed s.runner) (perform app calls q))
    (hbusy : (w.runner s.runner).activity ≠ .idle) (pending : Option Message) :
    SameSession (w.runner s.runner) ((s.release app calls pending w).2.runner s.runner) := by
  cases pending with
  | none => exact SameSession.refl _
  | some m =>
    change SameSession _ ((s.publish app calls m w).2.runner s.runner)
    unfold Session.publish
    rw [Effect.run_bind]
    dsimp only [Effect.runner]
    cases (w.runner s.runner).publisher with
    | none => exact SameSession.refl _
    | some publisher =>
      obtain ⟨events, -, hapart⟩ := (composes_undisturbed s.runner).sequential.exec app calls
        hperform (app.publisher publisher m) (w.note (.published s.runner m)) hbusy
      exact hapart.session

/-- A call that does not fail and is not hindered ends with a look that finds nothing. -/
theorem exists_endsWithLook (hbuilt : app.Built) {c : Call S} {returned : Option Message}
    (hok : (callWithin app (depth + 1) r c w).1 = .ok returned) {events : List (Event S)}
    (hjournal : (callWithin app (depth + 1) r c w).2.journal = events ++ w.journal)
    (hunhindered : offers r events = triggers r events)
    (htriggered : ∀ m, c = .react m → triggers r events ≠ []) :
    ∃ name pending left, ∃ s : Session S, s.runner = r ∧ c.model? (w.runner r) = some name ∧
      (callWithin app (depth + 1) r c w).2 = left.left r ∧
      ((∃ m, c = .react m) → pending = none) ∧
      s.EndsWithLook app (callWithin app depth) name pending
        (c.lastLook app (callWithin app depth) r w) left := by
  rcases refused_or_admitted app (depth + 1) r c w with ⟨label, hrefused⟩ | ⟨hidle, -⟩
  · rw [hrefused] at hok
    cases hok
  rw [callWithin_of_idle app depth r c hidle, occupy_eq] at hok hjournal ⊢
  have hgrows := callWithin_grows app depth
  have hprimitives := primitives_grows app hgrows r
  have hserve := (hprimitives.parts composes_grows.sequential).serve
    composes_grows.sequential c (w.entered r)
  have hunhindered := unhindered_of_left rfl hserve hjournal hunhindered
  cases c with
  | react m =>
    have htriggered : ¬ Untriggered r (w.entered r)
        ((serve app (callWithin app depth) r (.react m)).run (w.entered r)).2 := by
      intro h
      obtain ⟨events', hevents', hnone⟩ := (untriggered_left_iff rfl hserve).mpr h
      obtain rfl := List.append_cancel_right (hjournal.symm.trans hevents')
      exact htriggered m rfl hnone
    obtain ⟨name, s, hmodel, hs, hends⟩ := reactTo_lastLook hbuilt m hok hunhindered htriggered
    exact ⟨name, none, _, s, hs, hmodel, rfl, fun _ => rfl, hends⟩
  | run name =>
    obtain ⟨pending, s, hs, hends⟩ := runModel_lastLook hbuilt name hok hunhindered
    refine ⟨name, pending, _, s, hs, rfl, rfl, ?_, hends⟩
    rintro ⟨m, hm⟩
    cases hm

/-- **A call leaves its runner quiescent**, if it does not fail, its hook suppresses no step, and,
in case it reacts to a message, some step is triggered. When it looks for a step the last time, let
evaluating the guards of its model do nothing. It finds none then, and ends; but what a run has
pending goes to the publisher before, who may change what guards see and who acts. So take any world
where the runner is as the call left it, and where the actor acts and the guards answer as at that
last look: the call itself leads to such a world if nothing was pending, as always after a reaction.
The runner is quiescent there. No step can take a system event, and a call that offers one comes to
nothing and leaves the runner as it is; and unless steps stand in for each other in a circle, no
system step is among the candidates for any message. -/
theorem quiescence_of_call (hbuilt : app.Built) (depth : Nat) (r : RunnerId S) (c : Call S)
    {w : World S} {returned : Option Message}
    (hok : (callWithin app (depth + 1) r c w).1 = .ok returned) {events : List (Event S)}
    (hjournal : (callWithin app (depth + 1) r c w).2.journal = events ++ w.journal)
    (hunhindered : offers r events = triggers r events)
    (htriggered : ∀ m, c = .react m → triggers r events ≠ [])
    (hkeep : ∀ name, c.model? (w.runner r) = some name → ∀ g, (app.model name).HasGuard g →
      (evalGuard app (callWithin app depth) g (c.lastLook app (callWithin app depth) r w)).2 =
        c.lastLook app (callWithin app depth) r w) :
    ∃ name pending, ∃ s : Session S, s.runner = r ∧ c.model? (w.runner r) = some name ∧
      (callWithin app (depth + 1) r c w).2 = (s.release app (callWithin app depth) pending
        (c.lastLook app (callWithin app depth) r w)).2.left r ∧
      ((∃ m, c = .react m) → pending = none) ∧
      (pending = none → AsLastSeen app depth r name (c.lastLook app (callWithin app depth) r w)
        (callWithin app (depth + 1) r c w).2 (callWithin app (depth + 1) r c w).2) ∧
      ((callWithin app (depth + 1) r c w).2.runner r).model = some name ∧
      ∀ w', AsLastSeen app depth r name (c.lastLook app (callWithin app depth) r w)
        (callWithin app (depth + 1) r c w).2 w' → Quiescent app depth r name w' := by
  obtain ⟨name, pending, left, s, rfl, hmodel, hleft, hreact, hsmodel, hbound, hengaged, w₁,
    hresolve, rfl⟩ := exists_endsWithLook hbuilt hok hjournal hunhindered htriggered
  have hquiet := hkeep name hmodel
  generalize c.lastLook app (callWithin app depth) s.runner w = look at *
  rw [← hsmodel] at hquiet
  obtain ⟨rfl, hnone⟩ := candidates_of_resolve hquiet hresolve
  have hsession := release_sameSession (perform_undisturbed app s.runner depth) hengaged.busy
    pending
  refine ⟨name, pending, s, rfl, hmodel, hleft, hreact, fun hpending => ?_, ?_, fun w' has => ?_⟩
  · subst hpending
    rw [hleft]
    change AsLastSeen app depth s.runner name w₁ (w₁.left s.runner) (w₁.left s.runner)
    refine ⟨?_, ?_, rfl, ?_, fun g hg => ?_⟩
    · rw [World.runner_left]
    · rw [World.runner_left]
      exact hbound
    · rw [World.runner_left]
    · have hguard := hquiet g (hsmodel ▸ hg)
      have hunseen := evalGuard_inCall s.runner .idle (w₁.runner s.runner).working
        [.left s.runner] app (callWithin_noted app depth) (callWithin_grows app depth)
        (callWithin app (depth + 1)) g (congrArg World.journal hguard)
      rw [hguard] at hunseen
      exact hunseen
  · rw [hleft, World.runner_left]
    exact hsession.model.trans hbound
  · have hcursor : (w'.runner s.runner).cursor = (w₁.runner s.runner).working := by
      rw [has.cursor, hleft, World.runner_left, hengaged.committed]
      exact hsession.cursor
    rw [hsmodel, ← hcursor, ← has.actor] at hnone
    exact quiescent_of_candidates (placed_of_build (hbuilt name)) has.idle has.model has.guards
      hnone

end Call

/-- In the shop, no step stands in for another one. -/
theorem Shop.not_circular : ¬ (Shop.application.model ()).Circular := by
  rintro ⟨s, hcircle⟩
  obtain ⟨t, ⟨-, name, hposition, -⟩, -⟩ := Relation.TransGen.head'_iff.mp hcircle
  have hpositions : (Shop.application.model ()).flows.map (·.position) =
      [none, some .anytime, none, some .anytime] := rfl
  obtain ⟨flow, hflow, hposition⟩ := Option.bind_eq_some_iff.mp hposition
  have hmem := List.mem_map_of_mem (f := Flow.position) (List.mem_of_getElem? hflow)
  rw [hpositions, hposition] at hmem
  simp at hmem

/-- Once the order is paid for, packed and thanked for, the clerk waits for messages. -/
theorem quiescence_after_payment :
    (call Shop.application Shop.clerk (.react (Shop.pay "cash")) (Shop.ordered true)).1 =
        .ok (some (Shop.news "thanks")) ∧
      offers Shop.clerk (Shop.payment true) = triggers Shop.clerk (Shop.payment true) ∧
      (triggers Shop.clerk (Shop.payment true)).length = 3 ∧
      Quiescent Shop.application 0 Shop.clerk ()
        (call Shop.application Shop.clerk (.react (Shop.pay "cash")) (Shop.ordered true)).2 ∧
      ¬ (Shop.application.model ()).Circular := by
  have hok : (call Shop.application Shop.clerk (.react (Shop.pay "cash")) (Shop.ordered true)).1 =
      .ok (some (Shop.news "thanks")) := by decide +kernel
  have hunhindered : offers Shop.clerk (Shop.payment true) =
      triggers Shop.clerk (Shop.payment true) := by decide +kernel
  have htriggered : (triggers Shop.clerk (Shop.payment true)).length = 3 := by decide +kernel
  obtain ⟨events, hevents⟩ := callWithin_grows Shop.application 1 Shop.clerk
    (.react (Shop.pay "cash")) (Shop.ordered true)
  have hpayment := Shop.eq_payment hevents.symm
  obtain ⟨name, pending, s, -, -, -, hreact, has, -, hquiescent⟩ :=
    quiescence_of_call Shop.built 0 Shop.clerk (.react (Shop.pay "cash")) hok hevents.symm
      (by rw [hpayment]; exact hunhindered)
      (fun _ _ hnone => by rw [hpayment] at hnone; rw [hnone] at htriggered; cases htriggered)
      (fun _ _ g hg => by obtain rfl := Shop.eq_isOpen hg; rfl)
  exact ⟨hok, hunhindered, htriggered, hquiescent _ (has (hreact ⟨_, rfl⟩)), Shop.not_circular⟩

end UseCaseEngine
