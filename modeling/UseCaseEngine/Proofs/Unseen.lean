import UseCaseEngine.Proofs.Undisturbed

/-!
# What user code cannot see

User code can ask a runner for its actor, its latest step and its log (`Request`). What the runner
is doing, the cursor of its call in progress, and whether it is running, show only when it is
called, and neither does the journal show. So whatever user code asks for but calls, it does the
same in worlds that differ in these only.

* `perform_unseen`: a request other than a call does the same.
* `evalGuard_unseen`: so does a guard that makes no call.
-/

namespace UseCaseEngine

variable {S : Signature}

/-- A change of what user code cannot see of a runner. It starts no runner that was stopped. -/
structure Unseen where
  activity : Activity → Activity := id
  working : Cursor → Cursor := id
  running : Bool → Bool := id
  stopped : running false = false := by rfl

/-- The runner after the change. -/
def Unseen.apply (u : Unseen) (x : Runner S) : Runner S :=
  { x with
    activity := u.activity x.activity
    working := u.working x.working
    running := u.running x.running }

/-- The world after the change, and after some events that user code cannot see either. -/
def World.unseen (w : World S) (r : RunnerId S) (u : Unseen) (events : List (Event S)) : World S :=
  { w.setRunner r (u.apply (w.runner r)) with journal := events ++ w.journal }

section Unseen

variable (r : RunnerId S) (u : Unseen) (events : List (Event S))

theorem World.runner_unseen (w : World S) (r' : RunnerId S) :
    (w.unseen r u events).runner r' =
      if r = r' then u.apply (w.runner r') else w.runner r' := by
  change (w.setRunner r (u.apply (w.runner r))).runner r' = _
  split
  · rename_i heq
    subst heq
    exact World.runner_setRunner_self w r _
  · rename_i hne
    exact World.runner_setRunner_of_ne w hne _

/-- What changes something else of a runner changes it alike. -/
theorem modifyRunner_unseen (r' : RunnerId S) (f : Runner S → Runner S)
    (hf : ∀ x, f (u.apply x) = u.apply (f x)) (w : World S) :
    Effect.modifyRunner r' f (w.unseen r u events) =
      ((), ((Effect.modifyRunner r' f w).2).unseen r u events) := by
  have hrunners : (w.setRunner r (u.apply (w.runner r))).setRunner r'
      (f ((w.unseen r u events).runner r')) =
        (w.setRunner r' (f (w.runner r'))).setRunner r
          (u.apply ((w.setRunner r' (f (w.runner r'))).runner r)) := by
    rw [World.runner_unseen]
    by_cases h : r = r'
    · subst h
      rw [if_pos rfl, hf, World.runner_setRunner_self, World.setRunner_setRunner,
        World.setRunner_setRunner]
    · rw [if_neg h, World.runner_setRunner_of_ne w (Ne.symm h), World.setRunner_comm w h]
  exact congrArg (fun x : World S => ((), { x with journal := events ++ w.journal })) hrunners

variable (app : Application S)

/-- **A request other than a call does the same**, if it is not noted after events that it does not
see. -/
theorem perform_unseen (calls calls' : Calls S) (q : Request S) (hq : ∀ r c, q ≠ .call r c)
    {w : World S} (h : events = [] ∨ (perform app calls q w).2.journal = w.journal) :
    perform app calls' q (w.unseen r u events) =
      ((perform app calls q w).1, (perform app calls q w).2.unseen r u events) := by
  have hread {α : Type} (read : Runner S → α) (hread : ∀ x, read (u.apply x) = read x)
      (r' : RunnerId S) : read ((w.unseen r u events).runner r') = read (w.runner r') := by
    rw [World.runner_unseen]
    split
    · exact hread _
    · rfl
  have hmodify (r' : RunnerId S) (f : Runner S → Runner S)
      (hf : ∀ x, f (u.apply x) = u.apply (f x)) := modifyRunner_unseen r u events r' f hf w
  have hnote (e : Event S) (w₁ : World S) (h : events = [] ∨ e :: w₁.journal = w₁.journal) :
      (w₁.unseen r u events).note e = (w₁.note e).unseen r u events := by
    rcases h with rfl | h
    · rfl
    · exact absurd h (List.cons_ne_self _ _)
  cases q with
  | call r' c => exact absurd rfl (hq r' c)
  | stop r' =>
    refine hmodify r' (fun x => { x with running := false }) fun x => ?_
    simp only [Unseen.apply, u.stopped]
  | actAs r' actor => exact hmodify r' (fun x => { x with actor }) fun _ => rfl
  | setHook r' hook => exact hmodify r' (fun x => { x with hook := some hook }) fun _ => rfl
  | setPublisher r' publisher =>
    exact hmodify r' (fun x => { x with publisher := some publisher }) fun _ => rfl
  | startRecording r' =>
    have hstart := hmodify r' (fun x => { x with recording := x.recording.start }) fun _ => rfl
    exact (congrArg (fun p => ((), p.2.note (.recording r' true))) hstart).trans
      (congrArg (Prod.mk ()) (hnote _ _ h))
  | stopRecording r' =>
    have hstop := hmodify r' (fun x => { x with recording := x.recording.stop }) fun _ => rfl
    exact (congrArg (fun p => ((), p.2.note (.recording r' false))) hstop).trans
      (congrArg (Prod.mk ()) (hnote _ _ h))
  | actingActor r' =>
    exact congrArg (·, w.unseen r u events) (hread (fun x => x.actor) (fun _ => rfl) r')
  | latestStep r' =>
    exact congrArg (·, w.unseen r u events)
      (hread (fun x => do
        let step ← (app.model (← x.model)).step? (← x.cursor.latest)
        return step.name) (fun _ => rfl) r')
  | recordedSteps r' =>
    exact congrArg (·, w.unseen r u events)
      (hread (fun x => x.recording.steps) (fun _ => rfl) r')
  | put q m =>
    have hqueue : (w.unseen r u events).queue q = w.queue q := rfl
    unfold perform at h ⊢
    dsimp only at h ⊢
    rw [hqueue]
    generalize (w.queue q).put m = result at h ⊢
    obtain ⟨x, e | _⟩ := result
    · rfl
    · exact congrArg (Prod.mk (Except.ok ())) (hnote _ (w.setQueue q x) h)
  | readState => rfl
  | writeState state => rfl
  | stopQueue q => rfl
  | sample s => rfl
  | startTiming => rfl
  | sampleDuration name labels => rfl

variable {calls : Calls S} (hnoted : ∀ r c w, (calls r c w).2.journal ≠ w.journal)
include hnoted

/-- **A guard does the same** if it notes nothing. Nothing is struck from the journal, so none of
its requests is noted, and it makes no call, as a call is always noted. -/
theorem evalGuard_unseen (hgrows : ∀ r c, Effect.Within Grows (calls r c)) (calls' : Calls S)
    (g : Guard S) {w : World S} (h : (evalGuard app calls g w).2.journal = w.journal) :
    evalGuard app calls' g (w.unseen r u events) =
      ((evalGuard app calls g w).1, (evalGuard app calls g w).2.unseen r u events) := by
  have hperform := perform_within (fun _ _ => Aside.grows) app hgrows
  induction g generalizing w with
  | done holds => rfl
  | ask q next ih =>
    change Program.run (I := guardInterface S) (perform app calls')
      (next (perform app calls' q (w.unseen r u events)).1)
        (perform app calls' q (w.unseen r u events)).2 = _
    change (evalGuard app calls (next (perform app calls q w).1)
      (perform app calls q w).2).2.journal = w.journal at h
    -- The rest strikes nothing from the journal, so what it ends with it had after the request.
    have hrest : Grows (perform app calls q w).2 (evalGuard app calls
        (next (perform app calls q w).1) (perform app calls q w).2).2 :=
      composes_grows.sequential.evalGuard app calls hperform _ _
    have hfirst : (perform app calls q w).2.journal = w.journal := by
      refine ((hperform q w).eq_of_length_le ?_).symm
      rw [← h]
      exact hrest.length_le
    have hq (r' : RunnerId S) (c : Call S) : q ≠ .call r' c := by
      rintro rfl
      exact hnoted r' c w hfirst
    rw [perform_unseen r u events app calls calls' q hq (.inr hfirst)]
    exact ih _ (h.trans hfirst.symm)

end Unseen

end UseCaseEngine
