import UseCaseEngine.Proofs.Asking
import UseCaseEngine.Proofs.Placement

/-!
# Turns

What a step that took its turn did to the cursor (`apply_reaction`), said without the runner:
`Cursor.after` moves the cursor past one turn, `Cursor.replay` past several. A turn carries the
answers that the conditions for repeating gave while included use cases were left, so both are
plain functions, whatever guards do when they are evaluated.

* `exists_heard`: a program that asks guards comes to the same when the answers that it got are read
  off a list, and it uses up all of them.
* `after_of_apply`: the effect that the runner gives a step is the one of its turn.
-/

namespace UseCaseEngine

variable {C : Code}

/-- Answers guards off a list. A guard for which none is left does not hold. -/
def told (_ : C.Guard) : StateM (List Bool) Bool
  | [] => (false, [])
  | answer :: rest => (answer, rest)

/-- The cursor after a step took its turn: the step is the latest and no target is pending. Without
a failure the step's effect follows, if what it refers to exists. -/
def Cursor.after (model : Model C) (c : Cursor) (t : Turn) : Cursor :=
  match model.step? t.step with
  | none => c
  | some step =>
    match t.output, step.reaction with
    | .error _, _ => c.reached step
    | .ok _, .includeUseCase name =>
      match model.useCaseNamed? name with
      | some useCase => (c.reached step).enter step useCase.id
      | none => c.reached step
    | .ok _, .continueAt name =>
      match model.stepNamed? name with
      | some target => (c.reached step).continuedAt step target
      | none => c.reached step
    | .ok _, .continueAfter name =>
      match model.stepNamed? name with
      | some target => (c.reached step).continuedAfter target
      | none => c.reached step
    | .ok _, _ =>
      let (latest, frames) := (settle told model step c.frames t.answers).1
      { latest := some latest, frames }

/-- The cursor after several turns in order. -/
def Cursor.replay (model : Model C) (c : Cursor) (turns : List Turn) : Cursor :=
  turns.foldl (Cursor.after model) c

/-- The turn is one of a step of the model, and it carries the answers that were asked for at the
cursor, and no more. -/
def Turn.Heard (model : Model C) (c : Cursor) (t : Turn) : Prop :=
  ∃ step, model.step? t.step = some step ∧
    match t.output with
    | .ok _ => ((c.reached step).apply told model step t.answers).2 = []
    | .error _ => t.answers = []

/-- So is each of several turns in order. -/
def Turn.AllHeard (model : Model C) : Cursor → List Turn → Prop
  | _, [] => True
  | c, t :: ts => t.Heard model c ∧ AllHeard model (c.after model t) ts

section Replay

variable (model : Model C) (c : Cursor)

@[simp] theorem replay_nil : c.replay model [] = c := rfl

@[simp] theorem replay_cons (t : Turn) (ts : List Turn) :
    c.replay model (t :: ts) = (c.after model t).replay model ts := rfl

theorem replay_append (ts us : List Turn) :
    c.replay model (ts ++ us) = (c.replay model ts).replay model us := by
  simp [Cursor.replay]

theorem allHeard_append (ts us : List Turn) :
    Turn.AllHeard model c (ts ++ us) ↔
      Turn.AllHeard model c ts ∧ Turn.AllHeard model (c.replay model ts) us := by
  induction ts generalizing c with
  | nil => simp [Turn.AllHeard]
  | cons t ts ih => simp [Turn.AllHeard, ih, and_assoc]

end Replay

/-! ## What was heard is what happened -/

section Heard

variable {σ α : Type} (eval : C.Guard → StateM σ Bool)

/-- Writing the answers down changes nothing, and they suffice to come to the same again. -/
theorem exists_heard (p : Program (guards C) α) (sofar : List Bool) (w : σ) :
    ∃ answers,
      p.run (m := StateT (List Bool) (StateM σ)) (heard eval) sofar w =
        (((p.run eval w).1, sofar ++ answers), (p.run eval w).2) ∧
      ∀ rest, p.run told (answers ++ rest) = ((p.run eval w).1, rest) := by
  induction p generalizing sofar w with
  | done a => exact ⟨[], by simp only [List.append_nil]; rfl, fun rest => rfl⟩
  | ask g next ih =>
    obtain ⟨answers, hheard, htold⟩ := ih (eval g w).1 (sofar ++ [(eval g w).1]) (eval g w).2
    refine ⟨(eval g w).1 :: answers, ?_, htold⟩
    rw [List.append_cons]
    exact hheard

theorem exists_heard_apply (model : Model C) (here : Cursor) (step : Step C) (w : σ) :
    ∃ answers,
      here.apply (m := StateT (List Bool) (StateM σ)) (heard eval) model step [] w =
        (((here.apply eval model step w).1, answers), (here.apply eval model step w).2) ∧
      here.apply told model step answers = ((here.apply eval model step w).1, []) := by
  obtain ⟨answers, hheard, htold⟩ := exists_heard eval (here.apply ask model step) [] w
  rw [run_apply, run_apply] at hheard
  have htold := htold []
  rw [run_apply, run_apply, List.append_nil] at htold
  exact ⟨answers, hheard, htold⟩

end Heard

/-- **The effect of a step is the one of its turn.** -/
theorem after_of_apply {model : Model C} {c : Cursor} {t : Turn} {step : Step C}
    {o : Option Message} (hs : model.step? t.step = some step) (ho : t.output = .ok o) :
    c.after model t = ((c.reached step).apply told model step t.answers).1.1 := by
  unfold Cursor.after Cursor.apply
  simp only [hs, ho]
  cases hr : step.reaction with
  | idle => rfl
  | function code => rfl
  | includeUseCase name =>
    dsimp only
    cases model.useCaseNamed? name <;> rfl
  | continueAt name =>
    dsimp only [Model.resolve]
    cases model.stepNamed? name <;> rfl
  | continueAfter name =>
    dsimp only [Model.resolve]
    cases model.stepNamed? name <;> rfl

theorem after_of_failure {model : Model C} {c : Cursor} {t : Turn} {step : Step C}
    {failure : Failure} (hs : model.step? t.step = some step) (ho : t.output = .error failure) :
    c.after model t = c.reached step := by
  unfold Cursor.after
  rw [hs, ho]

end UseCaseEngine
