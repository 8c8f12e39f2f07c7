import UseCaseEngine.Example.School
import UseCaseEngine.Proofs.Departure
import UseCaseEngine.Proofs.Enactment

/-!
# Repetition

A step with a condition for repeating reacts again as long as the condition holds, and lets the run
go on once it does not. The condition is asked in several places: by the step itself, by whatever
waits for the step, and when an included use case might be left. They agree.

Out of scope: conditions that change what they depend on. Where the places could hear different
answers, nothing is said here of how these fit together.

* `Model.WaitsFor`: what can only react where another step has just reacted.
* `isMarked_of_derivable`, `derivable_of_waitsFor`: it is held back while the step repeats, and let
  go afterwards.
* `staysOn_apply`, `handedBack_apply`: the effect of a step that repeats leaves the run where it is,
  and that of a step that is done hands included use cases back.
* `Repeats`, **`repeats_of_mem`**: what comes of the condition of a step, wherever a run stands.
* **`repetition_of_reachable`**: so it is in every run, where conditions are functions of the state.
* `left_by_slipping_away`: a step that continues somewhere else is left all the same.
-/

namespace UseCaseEngine

variable {C : Code}

/-! ## What waits for a step -/

section Waiting

variable (model : Model C) (source : Step C)

/-- The step can only react where the source has just reacted: it is declared behind it, or its flow
is entered after it, or in place of a step that can only react there. -/
inductive Model.WaitsFor : Step C → Prop where
  | behind {s : Step C} (h : model.LiesBehind source s) : Model.WaitsFor s
  | named {s : Step C} {flow : Flow C} {names : List String} {name : String}
      (henters : model.Enters s flow) (hposition : flow.position = some (.after names))
      (hname : name ∈ names) (hnamed : model.resolve name = .ok source) : Model.WaitsFor s
  | inPlace {s replaced : Step C} (h : model.StandsInFor s replaced)
      (hreplaced : Model.WaitsFor replaced) : Model.WaitsFor s

/-- A continuation made the step the next one, or a step that it stands in for, directly or not. -/
def Model.IsMarked (c : Cursor) (s : Step C) : Prop :=
  ∃ t, Relation.ReflTransGen model.StandsInFor s t ∧ c.continueAt = some t.id

end Waiting

section Positions

variable {ν : C.Guard → Bool} {model : Model C} {c : Cursor} {source s : Step C} {g : C.Guard}

/-- A run that stands on a step with a condition has left it just if the condition does not hold. -/
theorem comesAfter_iff_of_latest (hsource : model.step? source.id = some source)
    (hrepeat : source.repeatWhile = some g) (hlatest : c.latest = some source.id) :
    ComesAfter ν model c source.id ↔ ν g = false := by
  have hloops : source.SaysLoop (ν · = ·) false ↔ ν g = false := by
    unfold Step.SaysLoop
    rw [hrepeat]
  rw [← hloops]
  constructor
  · rintro ⟨-, step, hstep, hsays⟩
    obtain rfl := Option.some.inj (hsource.symm.trans hstep)
    exact hsays
  · exact fun hsays => ⟨hlatest, source, hsource, hsays⟩

theorem derivable_iff_of_liesBehind (hplaced : model.Placed) (hs : s ∈ model.steps)
    (hbehind : model.LiesBehind source s) (hpending : c.continueAt ≠ some s.id) :
    Derivable ν model c s ↔ ComesAfter ν model c source.id := by
  have hruled : Ruled ν model c s (standing ν model c model.flows.length s) :=
    ruled_standing hplaced hs (Nat.le_refl _)
  rw [← hruled.yes, ← isAfter_iff]
  unfold standing
  rw [stands_of_liesBehind hbehind hpending]
  exact ⟨Except.ok.inj, congrArg Except.ok⟩

theorem derivable_of_isMarked (h : model.IsMarked c s) : Derivable ν model c s := by
  obtain ⟨t, hchain, hmarked⟩ := h
  induction hchain using Relation.ReflTransGen.head_induction_on with
  | refl => exact .pending hmarked
  | head hstandsIn _ ih =>
    obtain ⟨flow, name, henters, hposition, hreplaced⟩ := Model.standsInFor_iff.mp hstandsIn
    exact .insteadOf henters hposition hreplaced ih

/-- **While the step repeats**, nothing that waits for it can be derived, unless it is marked. -/
theorem isMarked_of_derivable (hplaced : model.Placed)
    (hsource : model.step? source.id = some source) (hrepeat : source.repeatWhile = some g)
    (hlatest : c.latest = some source.id) (hholds : ν g = true) (hs : s ∈ model.steps)
    (hwaits : model.WaitsFor source s) (h : Derivable ν model c s) : model.IsMarked c s := by
  have hnot : ¬ ComesAfter ν model c source.id := by
    rw [comesAfter_iff_of_latest hsource hrepeat hlatest, hholds]
    exact nofun
  -- Each way to wait comes down to the source having been left, which it has not.
  induction hwaits with
  | @behind s hbehind =>
    by_cases hpending : c.continueAt = some s.id
    · exact ⟨s, .refl, hpending⟩
    · exact absurd ((derivable_iff_of_liesBehind hplaced hs hbehind hpending).mp h) hnot
  | @named s flow names name henters hposition hname hnamed =>
    by_cases hpending : c.continueAt = some s.id
    · exact ⟨s, .refl, hpending⟩
    · rw [derivable_iff_of_enters hpending henters, hposition] at h
      obtain ⟨steps, -, named, -, hafter⟩ := h
      have hid : source.id = named.id := Option.some.inj (hlatest.symm.trans hafter.1)
      exact absurd (hid ▸ hafter) hnot
  | @inPlace s replaced hstandsIn _ ih =>
    by_cases hpending : c.continueAt = some s.id
    · exact ⟨s, .refl, hpending⟩
    · obtain ⟨-, name, -, hreplaced⟩ := id hstandsIn
      have hmem := Model.mem_steps_of_stepNamed? (stepNamed?_of_resolve hreplaced)
      have hderivable := (derivable_iff_of_defers ⟨hpending, hstandsIn⟩).mp h
      obtain ⟨t, hchain, hmarked⟩ := ih hmem hderivable
      exact ⟨t, .head hstandsIn hchain, hmarked⟩

theorem stands_of_waitsFor (hwaits : model.WaitsFor source s)
    (hafter : ComesAfter ν model c source.id) : Stands model c (ν · = ·) s := by
  induction hwaits with
  | behind hbehind =>
    cases hbehind with
    | within hprevious => exact .behind hprevious hafter
    | @across flow henters hdefault hpreceding hlast =>
      unfold Model.isLast at hlast
      cases hflow : model.flow? source.flow with
      | none => simp [hflow] at hlast
      | some before =>
        have hbefore : (model.precedingFlow? flow).bind model.flow? = some before := by
          rw [hpreceding, Option.bind_some, hflow]
        have hbasic := not_isBasicFlow_of_precedingFlow? hpreceding
        exact .following henters hdefault hbasic hbefore (by simpa [hflow] using hlast) hafter
  | named henters hposition hname hnamed => exact .after henters hposition hname hnamed hafter
  | inPlace hstandsIn _ ih =>
    obtain ⟨flow, name, henters, hposition, hreplaced⟩ := Model.standsInFor_iff.mp hstandsIn
    exact .insteadOf henters hposition hreplaced ih

/-- **Once the step is done**, everything that waits for it can be derived, if names are known. -/
theorem derivable_of_waitsFor (hwaits : model.WaitsFor source s)
    (hafter : ComesAfter ν model c source.id) (hknown : ∀ name, ¬ Strands model c s name) :
    Derivable ν model c s :=
  derivable_of_stands (stands_of_waitsFor hwaits hafter) hknown

end Positions

/-! ## What comes of the effect -/

/-- The run stays on the step, and no included use case is left. -/
structure Cursor.StaysOn (c c' : Cursor) (s : Step C) : Prop where
  latest : c'.latest = some s.id
  frames : c.frames <:+ c'.frames

section Effects

variable {ν : C.Guard → Bool} {model : Model C} {c : Cursor} {s : Step C}

theorem settle_suffix (s : Step C) (frames : List Frame) :
    (settle (m := Id) ν model s frames).run.2 <:+ frames := by
  induction frames generalizing s with
  | nil => exact List.suffix_rfl
  | cons f rest ih =>
    unfold settle
    split
    · rw [Id.run_bind]
      cases (s.loops (m := Id) ν).run with
      | true => exact List.suffix_rfl
      | false =>
        cases model.step? f.includeStep with
        | none => exact List.suffix_cons f rest
        | some back => exact (ih back).trans (List.suffix_cons f rest)
    · exact List.suffix_rfl

/-- A step that repeats leaves no included use case. -/
theorem settle_of_loops (hloops : (s.loops (m := Id) ν).run = true) (frames : List Frame) :
    (settle (m := Id) ν model s frames).run = (s.id, frames) := by
  cases frames with
  | nil => rfl
  | cons f rest =>
    unfold settle
    split
    · rw [Id.run_bind, hloops]
      rfl
    · rfl

theorem apply_of_plain (hplain : s.reaction.Plain) :
    (c.apply (m := Id) ν model s).run =
      ({ c with
          latest := some (settle (m := Id) ν model s c.frames).run.1
          frames := (settle (m := Id) ν model s c.frames).run.2 }, .ok ()) := by
  unfold Cursor.apply
  cases hreaction : s.reaction with
  | idle => rfl
  | function code => rfl
  | _ =>
    rw [hreaction] at hplain
    exact hplain.elim

/-- **A step that repeats** stays where it is, unless it continues somewhere else. -/
theorem staysOn_apply (hlatest : c.latest = some s.id)
    (hgoes : ∀ name, ¬ s.reaction.Continues name) (hloops : (s.loops (m := Id) ν).run = true) :
    c.StaysOn (c.apply (m := Id) ν model s).run.1 s := by
  by_cases hplain : s.reaction.Plain
  · rw [apply_of_plain hplain, settle_of_loops hloops]
    exact ⟨rfl, List.suffix_rfl⟩
  · unfold Cursor.apply
    cases hreaction : s.reaction with
    | idle => exact absurd (hreaction ▸ trivial) hplain
    | function code => exact absurd (hreaction ▸ trivial) hplain
    | includeUseCase name =>
      dsimp only
      cases model.useCaseNamed? name with
      | none => exact ⟨hlatest, List.suffix_rfl⟩
      | some u => exact ⟨hlatest, List.suffix_cons _ _⟩
    | continueAt name => exact absurd (hreaction ▸ rfl) (hgoes name)
    | continueAfter name => exact absurd (hreaction ▸ rfl) (hgoes name)

/-- **A step that is done** and ends the innermost included use case hands it back. -/
theorem handedBack_apply (hplain : s.reaction.Plain) (hdone : (s.loops (m := Id) ν).run = false)
    {top : Frame} {rest : List Frame} (hframes : c.frames = top :: rest)
    (hfinishes : s.Finishes model top) :
    (c.apply (m := Id) ν model s).run.1.frames <:+ rest := by
  rw [apply_of_plain hplain, hframes]
  dsimp only
  unfold settle
  unfold Step.Finishes at hfinishes
  rw [if_pos hfinishes, Id.run_bind, hdone]
  cases model.step? top.includeStep with
  | none => exact List.suffix_rfl
  | some back => exact settle_suffix back rest

end Effects

/-! ## What can be reached -/

section Reached

variable {ν : C.Guard → Bool} {model : Model C} {c : Cursor} {source s : Step C} {g : C.Guard}

theorem isWilling_iff : (isWilling (m := Id) ν s).run = true ↔
    (holds (m := Id) ν s.guard).run = true ∧ (holds (m := Id) ν s.repeatWhile).run = true := by
  unfold isWilling
  rw [Id.run_bind]
  cases (holds (m := Id) ν s.guard).run <;> simp

theorem isOffered_iff : (isOffered (m := Id) ν model c s).run = Except.ok true ↔
    standing ν model c model.flows.length s = .ok true ∧
      (entryGuardHolds (m := Id) ν model s).run = true := by
  unfold isOffered
  rw [run_bind_eq_ok_iff]
  constructor
  · rintro ⟨stands, hstands, h⟩
    cases stands with
    | true => exact ⟨hstands, Except.ok.inj h⟩
    | false => cases h
  · rintro ⟨hstands, h⟩
    exact ⟨true, hstands, congrArg Except.ok h⟩

/-- What it takes to reach a step. -/
theorem isReachable_iff : (isReachable (m := Id) ν model c s).run = Except.ok true ↔
    ((isRepeating (m := Id) ν c s).run = true ∨
      (standing ν model c model.flows.length s = .ok true ∧
        (entryGuardHolds (m := Id) ν model s).run = true)) ∧
      (isWilling (m := Id) ν s).run = true := by
  rw [← isOffered_iff]
  unfold isReachable
  rw [run_bind_eq_ok_iff]
  constructor
  · rintro ⟨repeating, hrepeating, h⟩
    cases repeating with
    | true => exact ⟨.inl (Except.ok.inj hrepeating), Except.ok.inj h⟩
    | false =>
      obtain ⟨offered, hoffered, h⟩ := run_bind_eq_ok_iff.mp h
      cases offered with
      | true => exact ⟨.inr hoffered, Except.ok.inj h⟩
      | false => cases h
  · rintro ⟨h, hwilling⟩
    cases hrepeating : (isRepeating (m := Id) ν c s).run with
    | true => exact ⟨true, congrArg Except.ok hrepeating, congrArg Except.ok hwilling⟩
    | false =>
      rcases h with h | hoffered
      · cases hrepeating.symm.trans h
      · refine ⟨false, congrArg Except.ok hrepeating, ?_⟩
        exact run_bind_eq_ok_iff.mpr ⟨true, hoffered, congrArg Except.ok hwilling⟩

theorem isReachable_of_isRepeating (h : (isRepeating (m := Id) ν c s).run = true) :
    (isReachable (m := Id) ν model c s).run = Except.ok (isWilling (m := Id) ν s).run := by
  have hrepeating : isRepeating (m := Id) ν c s = true := h
  unfold isReachable
  rw [hrepeating]
  rfl

/-- Only the step that a run stands on repeats, if its condition holds. -/
theorem isRepeating_iff : (isRepeating (m := Id) ν c s).run = true ↔
    c.latest = some s.id ∧ (s.loops (m := Id) ν).run = true := by
  unfold isRepeating
  split
  · rename_i hlatest
    exact ⟨fun h => ⟨hlatest, h⟩, And.right⟩
  · rename_i hlatest
    exact iff_of_false nofun fun h => hlatest h.1

/-- What comes of the condition of a step, wherever a run stands. -/
structure Repeats (ν : C.Guard → Bool) (model : Model C) (c : Cursor) (source : Step C)
    (g : C.Guard) : Prop where
  /-- The step cannot be reached unless the condition holds, whatever its position. -/
  needed : (isReachable (m := Id) ν model c source).run = Except.ok true → ν g = true
  /-- A run that stands on the step can reach it again while the condition holds, if its guard does,
  whatever its position and the guard of its flow. -/
  again : c.latest = some source.id → ν g = true → (isReachable (m := Id) ν model c source).run =
    Except.ok (holds (m := Id) ν source.guard).run
  /-- And nothing that waits for it stands where it may react, unless it is marked. -/
  standing_iff : c.latest = some source.id → ν g = true → ∀ s ∈ model.steps,
    model.WaitsFor source s →
      (standing ν model c model.flows.length s = .ok true ↔ model.IsMarked c s)
  /-- So it cannot be reached either. -/
  heldBack : c.latest = some source.id → ν g = true → ∀ s ∈ model.steps,
    model.WaitsFor source s → s ≠ source → ¬ model.IsMarked c s →
      (isReachable (m := Id) ν model c s).run ≠ Except.ok true
  /-- Once the condition does not hold, all that waits for the step stands where it may react, if
  the names that this depends on are known, and can be reached if its own conditions hold. -/
  letGo : c.latest = some source.id → ν g = false → ∀ s ∈ model.steps,
    model.WaitsFor source s → (∀ name, ¬ Strands model c s name) →
      standing ν model c model.flows.length s = .ok true ∧
        ((isReachable (m := Id) ν model c s).run = Except.ok true ↔
          (entryGuardHolds (m := Id) ν model s).run = true ∧ (isWilling (m := Id) ν s).run = true)
  /-- A reaction of the step stays on it while the condition holds, and hands no included use case
  back, unless the step continues somewhere else. -/
  kept : c.latest = some source.id → ν g = true →
    (∀ name, ¬ source.reaction.Continues name) →
      c.StaysOn (c.apply (m := Id) ν model source).run.1 source
  /-- Once the condition does not hold, a reaction that ends the innermost included use case hands
  it back. -/
  handedBack : ν g = false → source.reaction.Plain → ∀ top rest, c.frames = top :: rest →
    source.Finishes model top → (c.apply (m := Id) ν model source).run.1.frames <:+ rest

variable (ν c) in
/-- **The places where the condition is asked agree.** -/
theorem repeats_of_mem (hplaced : model.Placed) (hsource : source ∈ model.steps)
    (hrepeat : source.repeatWhile = some g) : Repeats ν model c source g := by
  have hself := hplaced.step?_self hsource
  have hruled {s : Step C} (hs : s ∈ model.steps) :
      Ruled ν model c s (standing ν model c model.flows.length s) :=
    ruled_standing hplaced hs (Nat.le_refl _)
  have hloops : (source.loops (m := Id) ν).run = ν g := by
    unfold Step.loops
    rw [hrepeat]
    rfl
  have hsame {s : Step C} (hs : s ∈ model.steps) (hlatest : c.latest = some source.id)
      (h : (isRepeating (m := Id) ν c s).run = true) : s = source :=
    hplaced.step_inj hs hsource
      (Option.some.inj ((isRepeating_iff.mp h).1.symm.trans hlatest))
  have hneeded : (isReachable (m := Id) ν model c source).run = Except.ok true → ν g = true := by
    intro h
    have hwilling := (isWilling_iff.mp (isReachable_iff.mp h).2).2
    rw [hrepeat] at hwilling
    exact hwilling
  have hstanding (hlatest : c.latest = some source.id) (hholds : ν g = true) (s : Step C)
      (hs : s ∈ model.steps) (hwaits : model.WaitsFor source s) :
      standing ν model c model.flows.length s = .ok true ↔ model.IsMarked c s :=
    (hruled hs).yes.trans ⟨isMarked_of_derivable hplaced hself hrepeat hlatest hholds hs hwaits,
      derivable_of_isMarked⟩
  refine ⟨hneeded, fun hlatest hholds => ?_, hstanding,
    fun hlatest hholds s hs hwaits hne hmarked hreach => ?_,
    fun hlatest hdone s hs hwaits hknown => ?_,
    fun hlatest hholds hgoes => staysOn_apply hlatest hgoes (hloops.trans hholds),
    fun hdone hplain top rest hframes hfinishes =>
      handedBack_apply hplain (hloops.trans hdone) hframes hfinishes⟩
  · rw [isReachable_of_isRepeating (isRepeating_iff.mpr ⟨hlatest, hloops.trans hholds⟩)]
    have hwilling : (isWilling (m := Id) ν source).run = true ↔
        (holds (m := Id) ν source.guard).run = true := by
      rw [isWilling_iff, hrepeat]
      exact and_iff_left hholds
    exact congrArg Except.ok (Bool.eq_iff_iff.mpr hwilling)
  · rcases (isReachable_iff.mp hreach).1 with hrepeating | ⟨hstands, -⟩
    · exact hne (hsame hs hlatest hrepeating)
    · exact hmarked ((hstanding hlatest hholds s hs hwaits).mp hstands)
  · have hafter := (comesAfter_iff_of_latest hself hrepeat hlatest).mpr hdone
    have hstands := (hruled hs).yes.mpr (derivable_of_waitsFor hwaits hafter hknown)
    refine ⟨hstands, ?_⟩
    have hrepeating : ¬ (isRepeating (m := Id) ν c s).run = true := by
      intro h
      obtain rfl := hsame hs hlatest h
      rw [← hloops, (isRepeating_iff.mp h).2] at hdone
      cases hdone
    simp [isReachable_iff, hrepeating, hstands]

end Reached

/-! ## Conditions on the state -/

section Minds

variable {ν : C.Guard → Bool} {model : Model C} {c : Cursor} {s : Step C}

/-- A step that reacts minds the conditions for repeating: its own holds, and the one of the step
that the run stands on does not, if the step waits for that one and is not marked. -/
structure Step.Minds (s : Step C) (ν : C.Guard → Bool) (model : Model C) (c : Cursor) : Prop where
  own : ∀ g, s.repeatWhile = some g → ν g = true
  latest : ∀ source ∈ model.steps, ∀ g, source.repeatWhile = some g →
    c.latest = some source.id → model.WaitsFor source s → s ≠ source → ¬ model.IsMarked c s →
      ν g = false

theorem minds_of_isReachable (hplaced : model.Placed) (hs : s ∈ model.steps)
    (h : (isReachable (m := Id) ν model c s).run = Except.ok true) : s.Minds ν model c where
  own _ hrepeat := (repeats_of_mem ν c hplaced hs hrepeat).needed h
  latest source hsource g hrepeat hlatest hwaits hne hmarked := by
    by_contra hholds
    have hrepeats := repeats_of_mem ν c hplaced hsource hrepeat
    exact hrepeats.heldBack hlatest (Bool.not_eq_false _ ▸ hholds) s hs hwaits hne hmarked h

/-- Only the conditions of the model matter. -/
theorem Step.Minds.congr {μ : C.Guard → Bool} (h : s.Minds μ model c) (hs : s ∈ model.steps)
    (hsame : ∀ g, model.HasGuard g → μ g = ν g) : s.Minds ν model c where
  own g hrepeat := (hsame g (.inl ⟨s, hs, .inr hrepeat⟩)).symm.trans (h.own g hrepeat)
  latest source hsource g hrepeat hlatest hwaits hne hmarked :=
    (hsame g (.inl ⟨source, hsource, .inr hrepeat⟩)).symm.trans
      (h.latest source hsource g hrepeat hlatest hwaits hne hmarked)

theorem minds_of_resolve (hplaced : model.Placed) {actor : String} {type : MessageType}
    {scope : Scope}
    (h : (resolve (m := Id) ν model c actor type scope).run = Except.ok (some s)) :
    s.Minds ν model c := by
  obtain ⟨left, hleft, h⟩ := run_bind_eq_ok_iff.mp h
  have hmem : s ∈ left := by
    rcases left with _ | ⟨first, _ | ⟨second, rest⟩⟩
    · cases h
    · cases h
      exact List.mem_singleton.mpr rfl
    · cases h
  obtain ⟨found, hfound, hcandidates⟩ := mem_candidates ν hleft
  obtain ⟨hs, -, hreach⟩ := (mem_reachable ν hfound s).mp ((hcandidates s).mp hmem).1
  exact minds_of_isReachable hplaced hs hreach

end Minds

section State

variable {S : Signature} {app : Application S} {ν : S.State → Guard S → Bool}

/-- The conditions in the models of the application are functions of its state. -/
def Application.ReadsState (app : Application S) (ν : S.State → Guard S → Bool) : Prop :=
  ∀ name g, (app.model name).HasGuard g →
    ∀ (calls : Calls S) (w : World S), evalGuard app calls g w = (ν w.state g, w)

/-- A step that a session resolves minds the conditions, by the state in which it is resolved. -/
theorem minds_of_resolution (hbuilt : app.Built) (hstate : app.ReadsState ν) {r : RunnerId S}
    (x : Resolution app r) :
    x.step.Minds (ν x.start.state) (app.model x.name) (x.start.runner r).working := by
  obtain ⟨after, hfound, -⟩ := x.found
  have hquiet (g : Guard S) (hg : (app.model x.name).HasGuard g) :
      (evalGuard app (callWithin app x.depth) g x.start).2 = x.start :=
    congrArg Prod.snd (hstate x.name g hg _ x.start)
  rw [resolve_of_quiet _ _ _ _ hquiet] at hfound
  have hminds := minds_of_resolve (placed_of_build (hbuilt x.name)) (congrArg Prod.fst hfound)
  exact hminds.congr (x.mem_steps hbuilt) fun g hg => congrArg Prod.fst (hstate x.name g hg _ _)

/-- The effect of a step is that of the conditions in the state in which it reacted, and nothing is
noted meanwhile. -/
theorem cursorAt_of_enactedBy (hstate : app.ReadsState ν) {r : RunnerId S} {name : S.ModelName}
    {step : Step (code S)} {t : Turn} {w : World S} {before : List (Event S)}
    (h : EnactedBy app r name step t w before) :
    w.journal = before ∧ cursorAt app r (.moved r t :: before) =
      (((cursorAt app r before).reached step).apply (m := Id) (ν w.state) (app.model name)
        step).run.1 := by
  obtain ⟨depth, c, after, applied, heffect, hc, hjournal⟩ := h.effect
  have hstep : step ∈ (app.model name).steps := Model.mem_steps_of_step? h.listed
  have hasks := asks_apply ((cursorAt app r before).reached step) hstep
  have hquiet := hasks.run_of_quiet fun g hg =>
    congrArg Prod.snd (hstate name g hg (callWithin app depth) w)
  have hsame := hasks.run_congr (m := Id) fun g hg =>
    congrArg Prod.fst (hstate name g hg (callWithin app depth) w)
  rw [h.working, ← run_apply] at heffect
  rw [← run_apply (m := Id), ← hsame, ← hc]
  have heffect := hquiet.symm.trans heffect
  exact ⟨(congrArg (·.2.journal) heffect).trans hjournal, congrArg (·.1.1) heffect.symm⟩

/-- What a turn of a step does about the condition of the step: while the condition holds in the
state in which the step reacted, the run stays on the step and no included use case is left, unless
the step continues somewhere else; once it does not hold, a step that ends the innermost included
use case hands it back. -/
structure Step.Obeys (step : Step (code S)) (holds : Bool) (model : Model (code S))
    (c c' : Cursor) : Prop where
  kept : holds = true → (∀ name, ¬ step.reaction.Continues name) → c.StaysOn c' step
  handedBack : holds = false → step.reaction.Plain → ∀ top rest, c.frames = top :: rest →
    step.Finishes model top → c'.frames <:+ rest

/-- **A step repeats as long as its condition holds, and no longer.** Wherever a run stands, a step
with a condition can only be reached if it holds. If the run stands on the step, either the
condition holds, and the step can be reached again while nothing that waits for it stands where it
may react, unless it is marked; or the condition does not hold, and all of that may react. A
reaction of the step hands an included use case back in the second case only, unless it continues
somewhere else. Let the conditions be functions of the state. Then in every run, a step is resolved
in a state in which the conditions let it react. A turn of a step that fails leaves the run on the
step, and no included use case is left. The turn of any other step obeys the condition of the step
in the state that its reaction led to. -/
theorem repetition_of_reachable (hbuilt : app.Built) (hstate : app.ReadsState ν) {w : World S}
    (h : Reachable app w) (r : RunnerId S) :
    (∀ (C : Code) (model : Model C), model.Built → ∀ (μ : C.Guard → Bool) (c : Cursor),
      ∀ source ∈ model.steps, ∀ g, source.repeatWhile = some g → Repeats μ model c source g) ∧
    (∀ id scope c actor state before,
      .resolved r id scope c actor state :: before <:+ w.journal →
        ∃ name step, ranModel? r before = some name ∧ (app.model name).step? id = some step ∧
          c = cursorAt app r before ∧ step.Minds (ν state) (app.model name) c) ∧
    ∀ t before, .moved r t :: before <:+ w.journal →
      ∃ name step, ranModel? r before = some name ∧ (app.model name).step? t.step = some step ∧
        (∀ failure, t.output = .error failure →
          (cursorAt app r before).StaysOn (cursorAt app r (.moved r t :: before)) step) ∧
        ∀ message, t.output = .ok message → ∃ state earlier,
          before = .reacted r t.step t.message t.output state :: earlier ∧
            ∀ g, step.repeatWhile = some g → step.Obeys (ν state g) (app.model name)
              (cursorAt app r before) (cursorAt app r (.moved r t :: before)) := by
  obtain ⟨-, hrecounted⟩ := recounted_of_reachable hbuilt h r
  refine ⟨fun C model hmodel μ c source hsource g hrepeat =>
    repeats_of_mem μ c (placed_of_build hmodel) hsource hrepeat,
    fun id scope c actor state before hsuffix => ?_, fun t before hsuffix => ?_⟩
  · obtain ⟨x, hevent, rfl⟩ := exists_resolution hbuilt h hsuffix
    obtain ⟨-, rfl, -, rfl, -, rfl⟩ := Event.resolved.inj hevent
    exact ⟨x.name, x.step, x.bound, (placed_of_build (hbuilt x.name)).step?_self
      (x.mem_steps hbuilt), hrecounted.faithful.resolved hsuffix,
      minds_of_resolution hbuilt hstate x⟩
  · obtain ⟨name, step, hbound, hstep, hcursor, -⟩ := hrecounted.faithful.moves hbuilt hsuffix
    refine ⟨name, step, hbound, hstep, fun failure houtput => ?_, fun message houtput => ?_⟩
    · rw [hcursor, after_of_failure hstep houtput]
      exact ⟨rfl, List.suffix_rfl⟩
    · obtain ⟨name', step', v, hby⟩ :=
        enacted_of_reachable hbuilt h r _ before hsuffix t message rfl houtput
      obtain rfl := Option.some.inj (hbound.symm.trans hby.bound)
      obtain rfl := Option.some.inj (hstep.symm.trans hby.listed)
      obtain ⟨earlier, hreacted⟩ := hby.reacted
      obtain ⟨hjournal, heffect⟩ := cursorAt_of_enactedBy hstate hby
      refine ⟨v.state, earlier, hjournal.symm.trans hreacted, fun g hrepeat => ?_⟩
      have hrepeats := repeats_of_mem (ν v.state) ((cursorAt app r before).reached step)
        (placed_of_build (hbuilt name)) (Model.mem_steps_of_step? hstep) hrepeat
      rw [heffect]
      refine ⟨fun hholds hgoes => ?_, hrepeats.handedBack⟩
      have hstays := hrepeats.kept rfl hholds hgoes
      exact ⟨hstays.latest, hstays.frames⟩

end State

namespace School

theorem built : application.Built :=
  fun _ => ⟨spec, (spec.build_eq_ok_iff _).mpr ⟨rfl, rfl⟩⟩

theorem fresh_start (strength : Nat) : (start strength).Fresh := by
  refine ⟨rfl, ?_, ?_, ?_, ?_⟩ <;> exact fun r => Fin.cases rfl (fun i => i.elim0) r

theorem reachable_after (strength : Nat) (calls : List (Call signature)) :
    Reachable application (after strength calls) :=
  (Reachable.fresh (fresh_start strength)).calls pupil calls

/-- The step that is declared at a place. -/
def stepAt (i : Fin 4) : Step (code signature) :=
  (application.model ()).steps.get (i.cast (by decide))

theorem eq_isKeen {g : Guard signature} (h : (application.model ()).HasGuard g) : g = isKeen := by
  have hguards : (application.model ()).steps.map (·.guard) = List.replicate 4 none := rfl
  have hconditions : (application.model ()).steps.map (·.repeatWhile) =
      [none, none, some isKeen, some isKeen] := rfl
  have hflows : (application.model ()).flows.map (·.guard) = List.replicate 3 none := rfl
  rcases h with ⟨s, hs, h | h⟩ | ⟨f, hf, h⟩
  · have hmem := hguards ▸ List.mem_map_of_mem (f := Step.guard) hs
    simp [h] at hmem
  · have hmem := hconditions ▸ List.mem_map_of_mem (f := Step.repeatWhile) hs
    simpa [h] using hmem
  · have hmem := hflows ▸ List.mem_map_of_mem (f := Flow.guard) hf
    simp [h] at hmem

/-- Whether a pupil is keen is a matter of his strength. -/
theorem readsState : application.ReadsState fun (strength : Nat) _ => decide (0 < strength) := by
  intro name g hg calls w
  obtain rfl := eq_isKeen hg
  rfl

/-- The world after a pupil with strength for two exercises began the lesson and did both. -/
def tired : World signature :=
  after 2 [.run (), .react (say beginType), .react (say exerciseType), .react (say exerciseType)]

theorem reachable_tired : Reachable application tired := reachable_after 2 _

/-- The second exercise was resolved after what is below it. -/
theorem exists_resolved_exercise : ∃ scope c actor state,
    .resolved pupil ⟨2⟩ scope c actor state :: tired.journal.drop 6 <:+ tired.journal := by
  have hread : tired.journal[4]?.bind (Event.offer? pupil) = some (⟨2⟩, say exerciseType) := by
    decide +kernel
  obtain ⟨e, hoffer, hdrop⟩ := exists_event hread
  obtain rfl := Event.eq_offered_of_offer? hoffer
  have hsequenced := sequenced_of_reachable built reachable_tired pupil
  obtain ⟨since, before, scope, c, actor, state, hearlier, hforeign⟩ :=
    hsequenced.offered (hdrop ▸ List.drop_suffix 4 tired.journal)
  obtain rfl := eq_drop_of_foreign hearlier hforeign (by decide +kernel)
  refine ⟨scope, c, actor, state, (List.suffix_append since _).trans ?_⟩
  rw [← hearlier]
  exact List.drop_suffix 5 _

end School

/-- In the inn, paying waits for the dish, which repeats while the guest is hungry. In the school,
the pupil could exercise again as there was strength left, and that exercise left the practice,
since it took the last of it. -/
theorem repetition_in_inn_and_school :
    let inn := Inn.application.model ()
    let served : Cursor := { latest := some ⟨1⟩ }
    let exercised := School.tired.journal.drop 6
    let reacted := School.tired.journal.drop 2
    (Repeats (fun _ => true) inn served (Inn.stepAt 1) Inn.isHungry ∧
        inn.WaitsFor (Inn.stepAt 1) (Inn.stepAt 2)) ∧
      (cursorAt School.application School.pupil exercised =
          { latest := some ⟨2⟩, frames := [⟨⟨0⟩, ⟨1⟩⟩] } ∧
        ∃ scope c actor state, .resolved School.pupil ⟨2⟩ scope c actor state :: exercised <:+
          School.tired.journal ∧ 0 < (state : Nat)) ∧
      ∃ t state earlier, .moved School.pupil t :: reacted = School.tired.journal.drop 1 ∧
        t.step = ⟨2⟩ ∧ reacted = .reacted School.pupil t.step t.message t.output state :: earlier ∧
        (cursorAt School.application School.pupil (.moved School.pupil t :: reacted)).frames = [] ∧
        (state : Nat) = 0 := by
  intro inn served exercised reacted
  obtain ⟨hrepeats, hresolved, hmoved⟩ := repetition_of_reachable School.built School.readsState
    School.reachable_tired School.pupil
  have hexercise : (School.application.model ()).step? ⟨2⟩ = some (School.stepAt 2) := rfl
  refine ⟨⟨?_, .behind (.within rfl)⟩, ⟨by decide +kernel, ?_⟩, ?_⟩
  · exact hrepeats _ _ (Inn.built ()) _ _ _ (Inn.stepAt_mem 1) _ rfl
  · obtain ⟨scope, c, actor, state, hsuffix⟩ := School.exists_resolved_exercise
    obtain ⟨name, step, -, hstep, -, hminds⟩ := hresolved _ _ _ _ _ _ hsuffix
    obtain rfl : School.stepAt 2 = step := Option.some.inj (hexercise.symm.trans hstep)
    have hkeen := hminds.own School.isKeen rfl
    exact ⟨scope, c, actor, state, hsuffix, of_decide_eq_true hkeen⟩
  · have hread : (School.tired.journal[1]?.bind (Event.turn? School.pupil)).map
        (fun t => (t.step, t.output.isOk)) = some (⟨2⟩, true) := by decide +kernel
    obtain ⟨t, message, hid, houtput, hdrop⟩ := exists_moved_ok hread
    obtain ⟨name, step, -, hstep, -, hok⟩ := hmoved t reacted (hdrop ▸ List.drop_suffix 1 _)
    obtain rfl : School.stepAt 2 = step := Option.some.inj (hexercise.symm.trans (hid ▸ hstep))
    obtain ⟨state, earlier, hreacted, hobeys⟩ := hok message houtput
    have hleft : (cursorAt School.application School.pupil
        (.moved School.pupil t :: reacted)).frames = [] := by
      rw [← hdrop]
      decide +kernel
    have hthere : (cursorAt School.application School.pupil reacted).frames ≠ [] := by
      decide +kernel
    refine ⟨t, state, earlier, hdrop.symm, hid, hreacted, hleft, ?_⟩
    rcases Nat.eq_zero_or_pos (state : Nat) with hzero | hkeen
    · exact hzero
    · have hstays := (hobeys School.isKeen rfl).kept (decide_eq_true hkeen) fun _ => id
      have hframes := hstays.frames
      rw [hleft] at hframes
      exact absurd (List.suffix_nil.mp hframes) hthere

/-- **A continuation leaves a step that repeats.** A pupil with strength left slips away from the
practice. He would still be keen to, but the practice is left, and the lesson is where it began, so
that the rest is next. -/
theorem left_by_slipping_away :
    let practicing := School.after 1 [.run (), .react (School.say School.beginType)]
    let slipped := School.after 1
      [.run (), .react (School.say School.beginType), .react (School.say School.slipType)]
    let cursor (w : World School.signature) := (w.runner School.pupil).cursor
    let offers (w : World School.signature) (type : MessageType) :=
      (inquire School.application (call School.application) ⟨School.pupil, type⟩ w).1.toOption
    let holds (w : World School.signature) := (School.stepAt 3).repeatWhile.map fun g =>
      (evalGuard School.application (call School.application) g w).1
    Reachable School.application slipped ∧
      (holds practicing = some true ∧ holds slipped = some true) ∧
      (cursor practicing).frames = [⟨⟨0⟩, ⟨1⟩⟩] ∧
      triggers School.pupil slipped.journal =
        [(⟨0⟩, School.say School.beginType), (⟨3⟩, School.say School.slipType)] ∧
      cursor slipped = { latest := some ⟨0⟩ } ∧
      ¬ (cursor practicing).StaysOn (cursor slipped) (School.stepAt 3) ∧
      offers slipped School.restType = some ["Rest"] := by
  intro practicing slipped cursor offers holds
  refine ⟨School.reachable_after 1 _, ⟨by decide +kernel, by decide +kernel⟩, by decide +kernel,
    by decide +kernel, by decide +kernel, fun hstays => ?_, by decide +kernel⟩
  have hlatest : (cursor slipped).latest = some ⟨0⟩ := by decide +kernel
  cases hlatest.symm.trans hstays.latest

end UseCaseEngine
