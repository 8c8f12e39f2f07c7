import UseCaseEngine.Proofs.Inclusion

/-!
# Continuing after a step

A continuation after a step (`continue_after`) is meant to go on as if that step had just reacted.
It leaves the use cases that were included inside of the step's own (`unwind_to`), and makes the
step the latest one. A step that reacts does more: it also finishes the use cases that it ends
(`settle`). `Cursor.asIfReacted` is what was meant.

* `asIfReacted_of_not_ends`, `asIfReacted_of_ends`: where the step itself leads.
* **`continued_after_of_reachable`**: where a continuation leads, and that this is where the step
  itself leads just if the step does not end the innermost use case that is left.
* `continued_after_differs`: on the trip, the shortcut leads behind the last stop of the detour and
  not back to the trip.
-/

namespace UseCaseEngine

variable {C : Code}

/-- The cursor after leaving the included use cases down to the one of a step, and executing the
step with a reaction that does nothing. -/
def Cursor.asIfReacted {m : Type → Type} [Monad m] (eval : C.Guard → m Bool) (model : Model C)
    (c : Cursor) (target : Step C) : m Cursor := do
  let left : Cursor := { c with frames := unwind target.useCase c.frames }
  let (reacted, _) ← left.advance eval model { target with reaction := .idle }
  return reacted

section AsIf

variable {σ : Type} (eval : C.Guard → StateM σ Bool) {model : Model C} {c : Cursor}

/-- Executing a step that does nothing settles the frames. -/
theorem asIfReacted_eq_settle (c : Cursor) (target : Step C) (w : σ) :
    (c.asIfReacted eval model target w).1 =
      { latest := some
          (settle eval model target (Cursor.unwind target.useCase c.frames) w).1.1
        frames := (settle eval model target (Cursor.unwind target.useCase c.frames) w).1.2 } := by
  have hidle (frames : List Frame) : settle eval model { target with reaction := .idle } frames =
      settle eval model target frames := by
    cases frames <;> rfl
  rw [← hidle]
  rfl

/-- What is left of the frames of a well-formed cursor settles. -/
theorem settles_unwind (hwell : c.WellFormed model) (target : Step C) (w : σ) :
    ∃ last left w', (c.asIfReacted eval model target w).1 =
        { latest := some last.id, frames := left } ∧
      Settles eval model target (Cursor.unwind target.useCase c.frames) w last left w' := by
  obtain ⟨last, left, w', hsettle, hsettles⟩ :=
    exists_settles eval (fun f hf => hwell.step?_of_frame (mem_of_mem_unwind hf)) target w
  refine ⟨last, left, w', ?_, hsettles⟩
  rw [asIfReacted_eq_settle, hsettle]

theorem asIfReacted_of_not_ends (hwell : c.WellFormed model) {target : Step C} {w : σ}
    (h : ¬ target.Ends eval model (Cursor.unwind target.useCase c.frames) w) :
    (c.asIfReacted eval model target w).1 =
      { latest := some target.id, frames := Cursor.unwind target.useCase c.frames } := by
  obtain ⟨last, left, w', hreacted, hsettles⟩ := settles_unwind eval hwell target w
  have hleft : left = Cursor.unwind target.useCase c.frames :=
    Classical.byContradiction fun hne => h (hsettles.left_ne_iff.mp hne)
  obtain ⟨popped, hframes, hlast, -⟩ := hsettles.frames_eq
  have hpopped : popped = [] := List.append_left_eq_self.mp (hframes.symm.trans hleft.symm)
  rw [hreacted, hleft, hlast hpopped]

theorem asIfReacted_of_ends (hplaced : model.Placed) (hwell : c.WellFormed model)
    {target : Step C} {w : σ}
    (h : target.Ends eval model (Cursor.unwind target.useCase c.frames) w) :
    ∃ popped f, Cursor.unwind target.useCase c.frames =
        popped ++ (c.asIfReacted eval model target w).1.frames ∧ popped.getLast? = some f ∧
      (c.asIfReacted eval model target w).1.latest = some f.includeStep := by
  obtain ⟨last, left, w', hreacted, hsettles⟩ := settles_unwind eval hwell target w
  obtain ⟨popped, hframes, -, hlast⟩ := hsettles.frames_eq
  have hne : popped ≠ [] := by
    rintro rfl
    exact hsettles.left_ne_iff.mpr h hframes.symm
  have hback := hlast _ (List.getLast?_eq_some_getLast hne)
  rw [hreacted]
  refine ⟨popped, popped.getLast hne, hframes, List.getLast?_eq_some_getLast hne, ?_⟩
  rw [hplaced.step_id hback]

end AsIf

/-- A turn of a continuation leads behind the named step. -/
theorem after_of_continueAfter {model : Model C} {c : Cursor} {t : Turn} {s target : Step C}
    {name : String} {message : Option Message} (hstep : model.step? t.step = some s)
    (houtput : t.output = .ok message) (hreaction : s.reaction = .continueAfter name)
    (htarget : model.resolve name = .ok target) :
    c.after model t =
      { latest := some target.id, frames := Cursor.unwind target.useCase c.frames } := by
  rw [after_of_apply hstep houtput]
  unfold Cursor.apply
  rw [hreaction]
  dsimp only
  rw [htarget]
  rfl

/-- A continuation led from one cursor behind a step. However the conditions for repeating are
answered, this is where the step itself would have led with a reaction that does nothing, just if it
does not end the innermost use case that is left. Else the step itself would have led behind the
step that included the last one of the use cases that it finishes. -/
structure ContinuesAfter (model : Model C) (c c' : Cursor) (target : Step C) : Prop where
  cursor : c' = { latest := some target.id, frames := Cursor.unwind target.useCase c.frames }
  same_iff : ∀ (σ : Type) (eval : C.Guard → StateM σ Bool) (x : σ),
    c' = (c.asIfReacted eval model target x).1 ↔
      ¬ target.Ends eval model (Cursor.unwind target.useCase c.frames) x
  handed_back : ∀ (σ : Type) (eval : C.Guard → StateM σ Bool) (x : σ),
    target.Ends eval model (Cursor.unwind target.useCase c.frames) x →
      ∃ popped f, c'.frames = popped ++ (c.asIfReacted eval model target x).1.frames ∧
        popped.getLast? = some f ∧
        (c.asIfReacted eval model target x).1.latest = some f.includeStep

theorem continuesAfter_of_wellFormed {model : Model C} {c : Cursor} (hplaced : model.Placed)
    (hwell : c.WellFormed model) (target : Step C) :
    ContinuesAfter model c
      { latest := some target.id, frames := Cursor.unwind target.useCase c.frames } target where
  cursor := rfl
  same_iff σ eval x := by
    refine ⟨fun hsame hends => ?_, fun hends => ?_⟩
    · obtain ⟨popped, f, hframes, hlast, -⟩ := asIfReacted_of_ends eval hplaced hwell hends
      rw [← hsame] at hframes
      have hpopped : popped = [] := List.self_eq_append_left.mp hframes
      rw [hpopped] at hlast
      cases hlast
    · exact (asIfReacted_of_not_ends eval hwell hends).symm
  handed_back σ eval x hends := asIfReacted_of_ends eval hplaced hwell hends

namespace Detour

/-- The world after the shortcut was taken on the detour. -/
def hurried : World signature := after [.run (), .react drive, .react hurry]

/-- Taking the shortcut was the last turn. -/
theorem exists_moved_hurried :
    ∃ t, t.step = ⟨4⟩ ∧ (∃ message, t.output = .ok message) ∧
      .moved driver t :: hurried.journal.drop 2 <:+ hurried.journal := by
  have hread : (hurried.journal[1]?.bind (Event.turn? driver)).map
      (fun t => (t.step, t.output.isOk)) = some (⟨4⟩, true) := by decide +kernel
  obtain ⟨t, message, hid, houtput, hdrop⟩ := exists_moved_ok hread
  exact ⟨t, hid, ⟨message, houtput⟩, hdrop ▸ List.drop_suffix 1 _⟩

end Detour

/-- **Continuing after a step leads behind it**, in every turn of every run that continues after a
step without failing. It leads as if the step had reacted itself, just if the step does not end an
included use case. -/
theorem continued_after_of_reachable {S : Signature} {app : Application S} (hbuilt : app.Built)
    {w : World S} (h : Reachable app w) (r : RunnerId S) :
    (w.runner r).cursor = cursorAt app r w.journal ∧
    ∀ t earlier, .moved r t :: earlier <:+ w.journal →
      ∃ bound s, ranModel? r earlier = some bound ∧ (app.model bound).step? t.step = some s ∧
        ∀ name message target, s.reaction = .continueAfter name → t.output = .ok message →
          (app.model bound).resolve name = .ok target →
          ContinuesAfter (app.model bound) (cursorAt app r earlier)
            (cursorAt app r (.moved r t :: earlier)) target := by
  obtain ⟨-, hrecounted⟩ := recounted_of_reachable hbuilt h r
  refine ⟨hrecounted.cursor, fun t earlier hsuffix => ?_⟩
  obtain ⟨bound, s, hbound, hstep, hcursor, -⟩ := hrecounted.faithful.moves hbuilt hsuffix
  refine ⟨bound, s, hbound, hstep, fun name message target hreaction houtput htarget => ?_⟩
  rw [hcursor, after_of_continueAfter hstep houtput hreaction htarget]
  exact continuesAfter_of_wellFormed (placed_of_build (hbuilt bound))
    (wellFormed_cursorAt hbuilt r hbound) target

/-- The shortcut leads behind the second stop. -/
theorem continued_after_on_detour :
    ∃ t target, .moved Detour.driver t :: Detour.hurried.journal.drop 2 <:+
        Detour.hurried.journal ∧
      (Detour.application.model ()).resolve "Second stop" = .ok target ∧
      ContinuesAfter (Detour.application.model ())
        (cursorAt Detour.application Detour.driver (Detour.hurried.journal.drop 2))
        (cursorAt Detour.application Detour.driver
          (.moved Detour.driver t :: Detour.hurried.journal.drop 2)) target := by
  obtain ⟨t, hid, ⟨message, houtput⟩, hsuffix⟩ := Detour.exists_moved_hurried
  obtain ⟨-, hturns⟩ := continued_after_of_reachable Detour.built
    (Detour.reachable_after [.run (), .react Detour.drive, .react Detour.hurry]) Detour.driver
  obtain ⟨⟨⟩, s, -, hstep, hcontinues⟩ := hturns t _ hsuffix
  rw [hid] at hstep
  cases hstep
  exact ⟨t, _, hsuffix, rfl, hcontinues _ message _ rfl houtput rfl⟩

/-- **The shortcut does not lead on as if the second stop had reacted**: that would have left the
detour. -/
theorem continued_after_differs :
    Reachable Detour.application Detour.hurried ∧
    (Detour.hurried.runner Detour.driver).cursor =
      { latest := some ⟨3⟩, frames := [⟨⟨0⟩, ⟨1⟩⟩] } ∧
    ∃ target, (Detour.application.model ()).resolve "Second stop" = .ok target ∧
      (((Detour.after [.run (), .react Detour.drive]).runner
        Detour.driver).cursor.asIfReacted (m := StateM (World Detour.signature))
          (evalGuard Detour.application (call Detour.application)) (Detour.application.model ())
          target (Detour.after [.run (), .react Detour.drive])).1 = { latest := some ⟨0⟩ } := by
  refine ⟨Detour.reachable_after _, by decide +kernel, _, rfl, ?_⟩
  decide +kernel

end UseCaseEngine
