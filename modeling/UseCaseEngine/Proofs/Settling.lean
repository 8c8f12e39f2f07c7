import UseCaseEngine.Proofs.Turns

/-!
# Leaving included use cases

After a step reacted, the included use cases that it finishes are left (`settle`), one after
another: the step that included one may finish the next one. `Settles` spells out the cases of
this, for any way of evaluating the conditions for repeating that may change a state.

* `exists_settles`: `settle` comes to one of them.
* `Settles.frames_eq`: frames are taken off the top, and the run goes on after the step that pushed
  the last one of them.
* `Settles.left_ne_iff`: some are taken off just if the step that reacted ends the innermost one.
* `Settles.stays`: the one that remains on top is not finished, unless the step in it repeats.
-/

namespace UseCaseEngine

variable {C : Code}

/-- The reaction moves the cursor only by leaving included use cases. -/
def Reaction.Plain : Reaction C → Prop
  | .idle | .function _ => True
  | _ => False

/-- Such a reaction settles. -/
theorem apply_plain {σ : Type} {eval : C.Guard → StateM σ Bool} {model : Model C} {here : Cursor}
    {s : Step C} (h : s.reaction.Plain) (w : σ) :
    here.apply eval model s w =
      (({ here with
          latest := some (settle eval model s here.frames w).1.1
          frames := (settle eval model s here.frames w).1.2 }, .ok ()),
        (settle eval model s here.frames w).2) := by
  unfold Cursor.apply
  cases hreaction : s.reaction with
  | idle => rfl
  | function code => rfl
  | _ =>
    rw [hreaction] at h
    exact h.elim

/-- The step ends a flow of the use case that the frame stands for. -/
def Step.Finishes (model : Model C) (s : Step C) (f : Frame) : Prop :=
  s.useCase = f.included ∧ model.isLast s = true

section Ends

variable {σ : Type} (eval : C.Guard → StateM σ Bool) (model : Model C)

/-- The step ends the innermost included use case, and does not repeat. -/
def Step.Ends (s : Step C) (frames : List Frame) (w : σ) : Prop :=
  ∃ top, frames.head? = some top ∧ s.Finishes model top ∧ (s.loops eval w).1 = false

/-- How included use cases are left. The states are those before and after. -/
inductive Settles : Step C → List Frame → σ → Step C → List Frame → σ → Prop where
  /-- There is no included use case. -/
  | root (s : Step C) (w : σ) : Settles s [] w s [] w
  /-- The step does not end the innermost one. -/
  | inside {s : Step C} {f : Frame} (h : ¬ s.Finishes model f) (rest : List Frame) (w : σ) :
      Settles s (f :: rest) w s (f :: rest) w
  /-- The step ends it, but repeats. -/
  | again {s : Step C} {f : Frame} {w : σ} (h : s.Finishes model f)
      (hloops : (s.loops eval w).1 = true) (rest : List Frame) :
      Settles s (f :: rest) w s (f :: rest) (s.loops eval w).2
  /-- The step ends it, and the step that included it takes its place. -/
  | leave {s back last : Step C} {f : Frame} {rest left : List Frame} {w w' : σ}
      (h : s.Finishes model f) (hdone : (s.loops eval w).1 = false)
      (hback : model.step? f.includeStep = some back)
      (hrest : Settles back rest (s.loops eval w).2 last left w') :
      Settles s (f :: rest) w last left w'

variable {model}

/-- One frame at a time. -/
theorem settle_cons (s : Step C) (f : Frame) (rest : List Frame) (w : σ) :
    settle eval model s (f :: rest) w =
      if s.useCase = f.included ∧ model.isLast s then
        if (s.loops eval w).1 then ((s.id, f :: rest), (s.loops eval w).2)
        else match model.step? f.includeStep with
          | some step => settle eval model step rest (s.loops eval w).2
          | none => ((f.includeStep, rest), (s.loops eval w).2)
      else ((s.id, f :: rest), w) := by
  rw [settle]
  split
  · change (if (s.loops eval w).1 then _ else _ : StateM σ _) _ = _
    split
    · rfl
    · cases model.step? f.includeStep <;> rfl
  · rfl

/-- **`settle` leaves included use cases one after another.** -/
theorem exists_settles {frames : List Frame}
    (hframes : ∀ f ∈ frames, ∃ s, model.step? f.includeStep = some s) (s : Step C) (w : σ) :
    ∃ last left w', settle eval model s frames w = ((last.id, left), w') ∧
      Settles eval model s frames w last left w' := by
  induction frames generalizing s w with
  | nil => exact ⟨s, [], w, rfl, .root s w⟩
  | cons f rest ih =>
    rw [settle_cons]
    by_cases hfinishes : s.useCase = f.included ∧ model.isLast s = true
    · rw [if_pos hfinishes]
      by_cases hloops : (s.loops eval w).1 = true
      · rw [if_pos hloops]
        exact ⟨s, f :: rest, (s.loops eval w).2, rfl, .again hfinishes hloops rest⟩
      · rw [if_neg hloops]
        obtain ⟨back, hback⟩ := hframes f List.mem_cons_self
        rw [hback]
        obtain ⟨last, left, w', hsettle, hsettles⟩ :=
          ih (fun g hg => hframes g (List.mem_cons_of_mem _ hg)) back (s.loops eval w).2
        exact ⟨last, left, w', hsettle,
          .leave hfinishes (Bool.eq_false_iff.mpr hloops) hback hsettles⟩
    · rw [if_neg hfinishes]
      exact ⟨s, f :: rest, w, rfl, .inside hfinishes rest w⟩

end Ends

/-- A step repeats only if it has a condition, and the first answer is that it holds. -/
theorem loops_told_eq_true {s : Step C} {answers : List Bool}
    (h : (s.loops told answers).1 = true) :
    s.repeats = true ∧ answers = true :: (s.loops told answers).2 := by
  unfold Step.loops at h ⊢
  unfold Step.repeats
  cases hrepeat : s.repeatWhile with
  | none =>
    rw [hrepeat] at h
    cases h
  | some g =>
    rw [hrepeat] at h
    cases answers with
    | nil => cases h
    | cons answer rest =>
      have hanswer : answer = true := h
      exact ⟨rfl, by rw [hanswer]; rfl⟩

/-- Asking whether a step repeats takes answers off the front. -/
theorem loops_told_suffix (s : Step C) (answers : List Bool) :
    (s.loops told answers).2 <:+ answers := by
  unfold Step.loops
  cases s.repeatWhile with
  | none => exact List.suffix_refl _
  | some g =>
    cases answers with
    | nil => exact List.suffix_refl _
    | cons answer rest => exact List.suffix_cons _ _

namespace Settles

section Left

variable {σ : Type} {eval : C.Guard → StateM σ Bool} {model : Model C} {s last : Step C}
  {frames left : List Frame} {w w' : σ} (h : Settles eval model s frames w last left w')
include h

/-- Frames are taken off the top, and the run goes on after the step that pushed the last one of
them. -/
theorem frames_eq :
    ∃ popped, frames = popped ++ left ∧ (popped = [] → last = s) ∧
      ∀ f, popped.getLast? = some f → model.step? f.includeStep = some last := by
  induction h with
  | root s w => exact ⟨[], rfl, fun _ => rfl, fun _ h => nomatch h⟩
  | inside h rest w => exact ⟨[], rfl, fun _ => rfl, fun _ h => nomatch h⟩
  | again h hloops rest => exact ⟨[], rfl, fun _ => rfl, fun _ h => nomatch h⟩
  | @leave s back last f rest left w w' h hdone hback hrest ih =>
    obtain ⟨popped, hframes, hempty, hlast⟩ := ih
    refine ⟨f :: popped, by rw [hframes, List.cons_append], nofun, fun g hg => ?_⟩
    cases popped with
    | nil =>
      obtain rfl : f = g := by simpa using hg
      rw [hempty rfl]
      exact hback
    | cons f' popped => exact hlast g (by simpa using hg)

theorem suffix : left <:+ frames := by
  obtain ⟨popped, hframes, -⟩ := h.frames_eq
  exact ⟨popped, hframes.symm⟩

/-- The step that the run goes on after is one of the model. -/
theorem step?_last (hs : model.step? s.id = some s)
    (hid : ∀ {id s}, model.step? id = some s → s.id = id) : model.step? last.id = some last := by
  induction h with
  | root s w => exact hs
  | inside h rest w => exact hs
  | again h hloops rest => exact hs
  | leave h hdone hback hrest ih => exact ih (by rw [hid hback]; exact hback)

/-- Only a step that ends the innermost included use case and does not repeat leaves it, and such a
step does. -/
theorem left_ne_iff : left ≠ frames ↔ s.Ends eval model frames w := by
  cases h with
  | root => exact ⟨fun h => absurd rfl h, fun ⟨_, htop, _⟩ => nomatch htop⟩
  | inside h rest =>
    refine ⟨fun h => absurd rfl h, fun ⟨top, htop, hfinishes, _⟩ => ?_⟩
    rw [← Option.some.inj htop] at hfinishes
    exact absurd hfinishes h
  | again h hloops rest =>
    refine ⟨fun h => absurd rfl h, fun ⟨_, _, _, hdone⟩ => ?_⟩
    rw [hloops] at hdone
    cases hdone
  | leave h hdone hback hrest =>
    refine ⟨fun _ => ⟨_, rfl, h, hdone⟩, fun _ heq => ?_⟩
    have hle := hrest.suffix.length_le
    rw [heq, List.length_cons] at hle
    omega

end Left

/-- The innermost use case that is left is not finished in turn, unless the step repeats: then the
last answer was that its condition holds. -/
theorem stays {model : Model C} {s last : Step C} {frames left : List Frame}
    {answers unused : List Bool} (h : Settles told model s frames answers last left unused)
    {f : Frame} (hf : left.head? = some f) (hfinishes : last.Finishes model f) :
    last.repeats = true ∧ ∃ asked, answers = asked ++ true :: unused := by
  induction h with
  | root s answers => cases hf
  | inside h rest answers =>
    cases hf
    exact absurd hfinishes h
  | again h hloops rest =>
    obtain ⟨hrepeats, hanswers⟩ := loops_told_eq_true hloops
    exact ⟨hrepeats, [], hanswers⟩
  | @leave s back last f rest left answers unused h hdone hback hrest ih =>
    obtain ⟨hrepeats, asked, hasked⟩ := ih hf hfinishes
    obtain ⟨first, hfirst⟩ := loops_told_suffix s answers
    exact ⟨hrepeats, first ++ asked, by rw [List.append_assoc, ← hasked, hfirst]⟩

end Settles

end UseCaseEngine
