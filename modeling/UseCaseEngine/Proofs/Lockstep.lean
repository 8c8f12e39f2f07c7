import UseCaseEngine.Proofs.Effects
import UseCaseEngine.Run.Delivery

/-!
# Two runs side by side

Two effects match over a relation between worlds if, started in related worlds, they give the same
and leave related worlds. Sequences match if their parts do, step by step. So do two sessions that
differ in how they offer steps, if this matches.

* `coupled_matches`: sequences of parts that match.
* `chained_lockstep`: what matches itself goes on so, whatever programs make of it.
* `Common.takeNext`, `Common.handleTaken`: what the worker of a queue does that both worlds have.
-/

namespace UseCaseEngine

variable {S : Signature} {R : World S → World S → Prop} {α : Type}

/-- In related worlds the two effects give the same, and leave related worlds. -/
def Effect.Matches (R : World S → World S → Prop) (p p' : Effect S α) : Prop :=
  ∀ w w', R w w' → (p w).1 = (p' w').1 ∧ R (p w).2 (p' w').2

/-- The effect does the same in related worlds. -/
def Effect.Lockstep (R : World S → World S → Prop) (p : Effect S α) : Prop := p.Matches R p

theorem Effect.matches_pure (R : World S → World S → Prop) (a : α) :
    Effect.Matches R (pure a) (pure a) := fun _ _ h => ⟨rfl, h⟩

/-- **Sequences match** if their parts do. -/
theorem coupled_matches (R : World S → World S → Prop) : Coupled (Effect.Matches R) where
  pure := Effect.matches_pure R
  bind := by
    intro α β p q f g hpq hfg w w' h
    obtain ⟨hsame, hrelated⟩ := hpq w w' h
    rw [Effect.run_bind, Effect.run_bind, ← hsame]
    exact hfg w _ _ hrelated

/-- **To do the same in related worlds** is a property that sequences have if their parts do. -/
theorem chained_lockstep (R : World S → World S → Prop) : Chained (Effect.Lockstep R) where
  pure := (coupled_matches R).pure
  bind := (coupled_matches R).bind

/-- In related worlds the two attempts come to the same, and leave related worlds. -/
def Attempt.Matches (R : World S → World S → Prop) (x x' : Attempt S α) : Prop :=
  Effect.Matches R x.run x'.run

/-- Related worlds have a queue in common, and stay related whatever its worker does to it. -/
structure Common (R : World S → World S → Prop) (q : QueueId S) : Prop where
  queue : ∀ {w w'}, R w w' → w.queue q = w'.queue q
  set : ∀ {w w'} x, R w w' → R (w.setQueue q x) (w'.setQueue q x)
  note : ∀ {w w'} (e : Event S), e.session? = none → (∀ r, e.recording? r = none) → R w w' →
    R (w.note e) (w'.note e)

namespace Common

variable {q : QueueId S} (h : Common R q)
include h

theorem takeNext : Effect.Lockstep R (takeNext q) := by
  intro w w' hw
  unfold UseCaseEngine.takeNext
  rw [← h.queue hw]
  split
  · exact ⟨rfl, h.note _ rfl (fun _ => rfl) (h.set _ hw)⟩
  · exact ⟨rfl, hw⟩

/-- What the worker of the queue hands over has the same effect if the queue's consumer does the
same. -/
theorem handleTaken (app : Application S)
    (hexec : ∀ m, Effect.Lockstep R (exec app (call app) (app.consumer q m))) :
    Effect.Lockstep R (handleTaken app q) := by
  intro w w' hw
  unfold UseCaseEngine.handleTaken
  rw [← h.queue hw]
  split
  · exact ⟨rfl, hw⟩
  · rename_i m _
    have hdone := hexec m _ _
      (h.note (.handed q m) rfl (fun _ => rfl) (h.set (w.queue q).start hw))
    dsimp only
    generalize exec app (call app) (app.consumer q m) _ = result at hdone ⊢
    generalize exec app (call app) (app.consumer q m) _ = result' at hdone ⊢
    obtain ⟨receipt, w₂⟩ := result
    obtain ⟨receipt', w₂'⟩ := result'
    obtain ⟨rfl, h₂⟩ := hdone
    dsimp only at h₂ ⊢
    rw [← h.queue h₂]
    exact ⟨rfl, h.note _ rfl (fun _ => rfl) (h.set _ h₂)⟩

end Common

end UseCaseEngine
