import UseCaseEngine.Proofs.Course
import UseCaseEngine.Proofs.Reach

/-!
# What is so throughout a run

Something may be said of whatever a journal notes, by what had been noted until then: in which world
a step was resolved, say, or took effect. To show it of every run it is enough to look at the parts
of a session, in a call that stands where the journal tells. Nothing else notes such things.

* `Throughout`: it was so whenever something was noted.
* `Poised`: a call stands where the journal tells.
* `Upheld`, **`Upheld.of_reachable`**: what the parts of sessions uphold is so in every run.
-/

namespace UseCaseEngine

variable {S : Signature}

/-- It was so whenever something was noted, by what had been noted until then. -/
def Throughout (Q : Event S → List (Event S) → Prop) (journal : List (Event S)) : Prop :=
  ∀ e before, e :: before <:+ journal → Q e before

section Throughout

variable {Q : Event S → List (Event S) → Prop} {journal : List (Event S)}

theorem throughout_nil : Throughout Q [] :=
  fun _ _ h => absurd (List.suffix_nil.mp h) nofun

theorem Throughout.note (h : Throughout Q journal) {e : Event S} (he : Q e journal) :
    Throughout Q (e :: journal) := by
  intro e' before hsuffix
  rcases List.suffix_cons_iff.mp hsuffix with heq | hsuffix
  · cases heq
    exact he
  · exact h e' before hsuffix

theorem Throughout.append (h : Throughout Q journal) {events : List (Event S)}
    (hevents : ∀ e ∈ events, ∀ before, Q e before) : Throughout Q (events ++ journal) := by
  induction events with
  | nil => exact h
  | cons e events ih =>
    have hrest := ih fun e he => hevents e (List.mem_cons_of_mem _ he)
    exact hrest.note (hevents e List.mem_cons_self _)

end Throughout

/-! ## Sessions -/

section Session

variable {app : Application S} {r : RunnerId S} {name : S.ModelName}

/-- The runner is in a call that runs the model and has committed its cursor, and stands where the
journal tells. -/
structure Poised (app : Application S) (r : RunnerId S) (name : S.ModelName) (w : World S) :
    Prop where
  engaged : Engaged (w.runner r)
  bound : ranModel? r w.journal = some name
  cursor : (w.runner r).cursor = cursorAt app r w.journal

theorem Told.poised {w w' : World S} (h : Told (app.model name) r w w')
    (hpoised : Poised app r name w) : Poised app r name w' := by
  obtain ⟨hengaged, -, events, hjournal, hran, haccount⟩ := h hpoised.engaged
  refine ⟨hengaged, ?_, ?_⟩
  · rw [hjournal, ranModel?_append r hran]
    exact hpoised.bound
  · rw [hjournal, cursorAt_append app hpoised.bound hran, haccount.cursor, hpoised.cursor]

variable {Q : Event S → List (Event S) → Prop}

variable (Q) in
/-- The call goes on, and what was so throughout still is. -/
def Upholds (app : Application S) (r : RunnerId S) (name : S.ModelName) (w w' : World S) : Prop :=
  Told (app.model name) r w w' ∧
    (Poised app r name w → Throughout Q w.journal → Throughout Q w'.journal)

theorem composes_upholds : Composes (Upholds Q app r name) where
  refl w := ⟨(composes_told _ r).refl w, fun _ h => h⟩
  trans := by
    rintro w₁ w₂ w₃ ⟨htold₁₂, h₁₂⟩ ⟨htold₂₃, h₂₃⟩
    refine ⟨(composes_told _ r).trans htold₁₂ htold₂₃, fun hpoised h => ?_⟩
    exact h₂₃ (htold₁₂.poised hpoised) (h₁₂ hpoised h)

/-- Of what other sessions note it is so anyway, and of what is noted around sessions. The parts of
the runner's sessions uphold it. -/
structure Upheld (app : Application S) (r : RunnerId S)
    (Q : Event S → List (Event S) → Prop) : Prop where
  foreign : ∀ e : Event S, e.session? ≠ some r → ∀ before, Q e before
  outer : ∀ e : Event S, e.isInner = false → ∀ before, Q e before
  parts : ∀ depth name (s : Session S), s.runner = r → s.model = app.model name →
    s.Parts app (callWithin app depth) (Effect.Within (Upholds Q app r name))

theorem mem_own {e : Event S} {events : List (Event S)} (he : e ∈ events)
    (hsession : e.session? = some r) : e ∈ own r events :=
  List.mem_reverse.mpr (List.mem_filterMap.mpr ⟨e, he, if_pos hsession⟩)

/-- What a part of a session tells keeps it, if it is so of that anyway. -/
theorem Effect.Tells.throughout {α : Type} {p : Effect S α}
    (h : Effect.Tells r false p fun _ events => ∀ e ∈ events, ∀ before, Q e before)
    (hforeign : ∀ e : Event S, e.session? ≠ some r → ∀ before, Q e before) {w : World S}
    (hbusy : (w.runner r).activity ≠ .idle) (hw : Throughout Q w.journal) :
    Throughout Q (p w).2.journal := by
  obtain ⟨-, events, hjournal, hown⟩ := h w ⟨hbusy, nofun⟩
  rw [hjournal]
  refine hw.append fun e he => ?_
  by_cases hsession : e.session? = some r
  · exact hown e (mem_own he hsession)
  · exact hforeign e hsession

theorem Undisturbed.throughout {w w' : World S} (h : Undisturbed r w w')
    (hforeign : ∀ e : Event S, e.session? ≠ some r → ∀ before, Q e before)
    (hbusy : (w.runner r).activity ≠ .idle) (hw : Throughout Q w.journal) :
    Throughout Q w'.journal := by
  obtain ⟨events, hjournal, hapart⟩ := h hbusy
  rw [hjournal]
  exact hw.append fun e he => hforeign e (hapart.foreign e he)

variable (app) in
/-- Undisturbed, the call goes on, and the journal tells of the runner what it told. -/
theorem Undisturbed.tells_same {w w' : World S} (h : Undisturbed r w w')
    (hbusy : (w.runner r).activity ≠ .idle) :
    (w'.runner r).activity ≠ .idle ∧ ranModel? r w'.journal = ranModel? r w.journal ∧
      cursorAt app r w'.journal = cursorAt app r w.journal := by
  obtain ⟨events, hjournal, hapart⟩ := h hbusy
  refine ⟨?_, ?_, ?_⟩
  · rw [hapart.session.activity]
    exact hbusy
  · rw [hjournal, ranModel?_append r hapart.ran]
  · rw [hjournal, cursorAt_append_of_quiet app hapart.turns hapart.ran]

end Session

/-! ## Calls -/

namespace Upheld

variable {app : Application S} {r : RunnerId S} {Q : Event S → List (Event S) → Prop}
  (hQ : Upheld app r Q) {w : World S}
include hQ

/-- A session that is opened where the journal tells goes on as its parts do. -/
theorem opened (depth : Nat) {name : S.ModelName} (hbusy : (w.runner r).activity ≠ .idle)
    (hbound : ranModel? r w.journal = some name)
    (hcursor : (w.runner r).cursor = cursorAt app r w.journal) (h : Throughout Q w.journal)
    {body : Session S → Attempt S (Option Message)}
    (hbody : ∀ s : Session S,
      s.Parts app (callWithin app depth) (Effect.Within (Upholds Q app r name)) →
        Attempt.Within (Upholds Q app r name) (body s)) :
    Throughout Q ((liftM (openSession app r name) >>= body : Attempt S _).run w).2.journal := by
  obtain ⟨s, w₁, hopen, hs, hmodel, hjournal, hrunner⟩ := exists_openSession app w name (r := r)
  rw [Attempt.run_lift_bind, hopen]
  refine (hbody s (hQ.parts depth name s hs hmodel) w₁).2 ⟨?_, ?_, ?_⟩ ?_
  · rw [hrunner]
    exact ⟨hbusy, rfl⟩
  · rw [hjournal]
    exact hbound
  · rw [hjournal, hrunner]
    exact hcursor
  · rw [hjournal]
    exact h

theorem reactTo {depth : Nat} (hbusy : (w.runner r).activity ≠ .idle)
    (hbound : ranModel? r w.journal = (w.runner r).model)
    (hcursor : (w.runner r).cursor = cursorAt app r w.journal) (h : Throughout Q w.journal)
    (m : Message) :
    Throughout Q ((reactTo app (callWithin app depth) r m).run w).2.journal := by
  rcases (w.runner r).inactive_or with hinactive | ⟨hrunning, name, hmodel⟩
  · rw [reactTo_of_inactive hinactive]
    exact h
  · rw [reactTo_of_running hrunning hmodel]
    refine hQ.opened depth hbusy (hbound.trans hmodel) hcursor h fun s hparts => ?_
    exact hparts.react composes_upholds.sequential m

theorem runModel {depth : Nat} (hbusy : (w.runner r).activity ≠ .idle)
    (h : Throughout Q w.journal) (name : S.ModelName) :
    Throughout Q ((runModel app (callWithin app depth) r name).run w).2.journal := by
  rw [runModel_eq]
  have hstarted : ((w.started r name).runner r).activity ≠ .idle := by
    rw [World.runner_started]
    exact hbusy
  have hrecording := (composes_undisturbed r).sequential.recordFromStart app
    (callWithin app depth) (perform_undisturbed app r depth) r (w.started r name)
  generalize (recordFromStart r (w.started r name)).2 = w₂ at hrecording ⊢
  obtain ⟨events, hjournal, hapart⟩ := hrecording hstarted
  refine hQ.opened depth ?_ ?_ ?_ ?_ fun s hparts => ?_
  · rw [hapart.session.activity]
    exact hstarted
  · rw [hjournal, ranModel?_append r hapart.ran]
    simp [World.started, World.note, ranModel?, Event.ran?]
  · rw [hjournal, cursorAt_append_of_quiet app hapart.turns hapart.ran, hapart.session.cursor,
      World.runner_started]
    exact (cursorAt_run app name w.journal).symm
  · rw [hjournal]
    have hran : Throughout Q (w.started r name).journal := h.note (hQ.outer _ rfl _)
    exact hran.append fun e he => hQ.foreign e (hapart.foreign e he)
  · exact hparts.begin composes_upholds.sequential

theorem lasting : Lasting app r fun w => Throughout Q w.journal where
  apart hjournal hapart h := by
    rw [hjournal]
    exact h.append fun e he => hQ.foreign e (hapart.foreign e he)
  call depth c w hidle htold h := by
    rw [callWithin_of_idle app depth r c hidle, occupy_eq]
    have hentered : Throughout Q (w.entered r).journal := h.note (hQ.outer _ rfl _)
    refine Throughout.note ?_ (hQ.outer _ rfl _)
    have hsingle : ∀ e ∈ [(.entered r : Event S)], e.ran? r = none :=
      List.forall_mem_singleton.mpr rfl
    cases c with
    | run name => exact hQ.runModel (w.entered_busy r) hentered name
    | react m =>
      refine hQ.reactTo (w.entered_busy r) ?_ ?_ hentered m
      · rw [World.runner_entered]
        exact htold.model.symm
      · rw [World.runner_entered]
        exact htold.cursor.trans (cursorAt_append_of_quiet app rfl hsingle).symm

/-- **What the parts of sessions uphold** is so throughout every run. -/
theorem of_reachable (hbuilt : app.Built) (h : Reachable app w) : Throughout Q w.journal := by
  have hfresh (w : World S) (hw : w.Fresh) : Throughout Q w.journal := by
    rw [hw.journal]
    exact throughout_nil
  exact (hQ.lasting.of_reachable hbuilt hfresh h).2.2

end Upheld

end UseCaseEngine
