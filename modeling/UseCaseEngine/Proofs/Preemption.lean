import Mathlib.Data.Set.Finite.List
import UseCaseEngine.Proofs.Derivation

/-!
# Preemption

Several steps may be able to take a message. Those that another one of them stands in for are
preempted (`preempted`), and one that is left takes the message if it is the only one. So of steps
that stand in for one another in a chain, the outermost one is left; and nothing is left of
something only if the steps stand in for one another in a circle.

* `passing`: the steps that could take the message, as they are asked one after the other.
* `exists_outermost`: who is preempted is preempted by someone who is not, or goes round in a
  circle.
* **`candidates_preempt`**: what is left of the steps that could take the message.
-/

namespace UseCaseEngine

variable {C : Code}

/-! ## The steps that pass -/

section Survey

variable {σ : Type} (eval : C.Guard → StateM σ Bool) (model : Model C) (c : Cursor)
  (actor : String) (type : MessageType) (scope : Scope)

/-- The step takes part, it is open to the actor and it expects the message. -/
def Step.fits (s : Step C) : Bool :=
  scope.admits c s && s.isOpenTo actor && s.expects type

/-- The steps that fit, each with the state in which it is asked whether it can be reached. What the
guards of one step do is done when the next one is asked. -/
def asked : List (Step C) → σ → List (Step C × σ)
  | [], _ => []
  | s :: rest, w =>
    if s.fits c actor type scope then
      (s, w) :: asked rest ((isReachable eval model c s).run w).2
    else asked rest w

/-- Asked in this state, the step can be reached. -/
def Step.isReachedIn (s : Step C) (w : σ) : Bool :=
  ((isReachable eval model c s).run w).1 matches .ok true

/-- The steps that can be reached among those that fit. -/
def passing (w : σ) : List (Step C) :=
  ((asked eval model c actor type scope model.steps w).filter fun x =>
    x.1.isReachedIn eval model c x.2).map Prod.fst

variable {eval model c actor type scope}

theorem run_bind_state {ε α β : Type} (x : ExceptT ε (StateM σ) α)
    (f : α → ExceptT ε (StateM σ) β) (w : σ) : (x >>= f).run w =
      match (x.run w).1 with
      | .ok a => (f a).run (x.run w).2
      | .error e => (.error e, (x.run w).2) := by
  change ExceptT.bindCont f (x.run w).1 (x.run w).2 = _
  cases (x.run w).1 <;> rfl

theorem run_bind_eq_ok {ε α β : Type} {x : ExceptT ε (StateM σ) α}
    {f : α → ExceptT ε (StateM σ) β} {w : σ} {b : β} (h : ((x >>= f).run w).1 = .ok b) :
    ∃ a, (x.run w).1 = .ok a ∧ ((f a).run (x.run w).2).1 = .ok b := by
  rw [run_bind_state] at h
  cases hx : (x.run w).1 with
  | error e =>
    rw [hx] at h
    cases h
  | ok a =>
    rw [hx] at h
    exact ⟨a, rfl, h⟩

/-- **What is found** are the steps that pass. -/
theorem eq_of_reachable {steps found : List (Step C)} {w : σ}
    (h : ((reachable eval model c actor type scope steps).run w).1 = .ok found) :
    found = ((asked eval model c actor type scope steps w).filter fun x =>
      x.1.isReachedIn eval model c x.2).map Prod.fst := by
  induction steps generalizing found w with
  | nil =>
    cases h
    rfl
  | cons s rest ih =>
    unfold reachable at h
    unfold asked Step.fits
    by_cases hfits : (scope.admits c s && s.isOpenTo actor && s.expects type) = true
    · rw [if_pos hfits] at h ⊢
      obtain ⟨reaches, hreaches, h⟩ := run_bind_eq_ok h
      rw [List.filter_cons]
      cases reaches with
      | true =>
        obtain ⟨others, hothers, h⟩ := run_bind_eq_ok h
        cases h
        rw [if_pos (by simp [Step.isReachedIn, hreaches]), List.map_cons, ← ih hothers]
      | false =>
        rw [if_neg (by simp [Step.isReachedIn, hreaches])]
        exact ih h
    · rw [if_neg hfits] at h ⊢
      exact ih h

/-- All steps that fit are asked, in the order of the model. -/
theorem map_fst_asked (steps : List (Step C)) (w : σ) :
    (asked eval model c actor type scope steps w).map Prod.fst =
      steps.filter (Step.fits c actor type scope) := by
  induction steps generalizing w with
  | nil => rfl
  | cons s rest ih =>
    unfold asked
    rw [List.filter_cons]
    split <;> simp [ih]

variable (eval model c actor type scope) in
theorem passing_sublist (w : σ) :
    (passing eval model c actor type scope w).Sublist model.steps := by
  have hasked : (passing eval model c actor type scope w).Sublist
      ((asked eval model c actor type scope model.steps w).map Prod.fst) :=
    List.filter_sublist.map Prod.fst
  rw [map_fst_asked] at hasked
  exact hasked.trans List.filter_sublist

/-- Guards that change nothing let all steps be asked in one state. -/
theorem passing_of_quiet {w : σ} (hquiet : ∀ g, model.HasGuard g → (eval g w).2 = w) :
    passing eval model c actor type scope w = model.steps.filter fun s =>
      s.fits c actor type scope && s.isReachedIn eval model c w := by
  have hasked {steps : List (Step C)} (hsub : steps ⊆ model.steps) :
      asked eval model c actor type scope steps w =
        (steps.filter (Step.fits c actor type scope)).map fun s => (s, w) := by
    induction steps with
    | nil => rfl
    | cons s rest ih =>
      obtain ⟨hs, hrest⟩ := List.cons_subset.mp hsub
      have hstays : ((isReachable eval model c s).run w).2 = w := by
        rw [← hoist_isReachable]
        exact congrArg Prod.snd ((asks_isReachable c hs).run_of_quiet hquiet)
      unfold asked
      rw [hstays, ih hrest, List.filter_cons]
      split <;> rfl
  unfold passing
  rw [hasked (List.Subset.refl _), List.filter_map, List.map_map, List.filter_filter]
  simp [Function.comp_def, Bool.and_comm]

end Survey

/-! ## The steps that are left -/

section Left

variable (model : Model C) (found : List (Step C))

/-- Both steps were found, and the first one stands in for the second one. -/
def Preempts (t s : Step C) : Prop :=
  t ∈ found ∧ s ∈ found ∧ model.StandsInFor t s

/-- The steps that are left of those that were found. -/
structure Outermost (left : List (Step C)) : Prop where
  ordered : left.Pairwise fun s t => s.id.index < t.id.index
  mem : ∀ s, s ∈ left ↔ s ∈ found ∧ ∀ t ∈ found, ¬ model.StandsInFor t s
  /-- Of a chain, only the end that is not preempted is left. -/
  chain : ∀ s t, Relation.TransGen (Preempts model found) t s → s ∉ left
  /-- Every chain has such an end, unless it goes round in a circle. -/
  covers : (∀ s, ¬ Relation.TransGen (Preempts model found) s s) →
    ∀ s ∈ found, ∃ t ∈ left, Relation.ReflTransGen (Preempts model found) t s
  /-- Nothing is left of something only if there is a circle. -/
  circle : left = [] → found ≠ [] → ∃ s, Relation.TransGen (Preempts model found) s s

variable {model found}

/-- Steps that are preempted are preempted in the end by one that is not. -/
theorem exists_outermost (hacyclic : ∀ s, ¬ Relation.TransGen (Preempts model found) s s)
    {s : Step C} (hs : s ∈ found) : ∃ t ∈ found, (∀ u ∈ found, ¬ model.StandsInFor u t) ∧
      Relation.ReflTransGen (Preempts model found) t s := by
  have htrans : IsTrans {s // s ∈ found} fun t s =>
      Relation.TransGen (Preempts model found) t.1 s.1 := ⟨fun _ _ _ hts hsu => hts.trans hsu⟩
  have hirrefl : Std.Irrefl (α := {s // s ∈ found}) fun t s =>
      Relation.TransGen (Preempts model found) t.1 s.1 := ⟨fun s hs => hacyclic s.1 hs⟩
  have hfinite : Finite {s // s ∈ found} := found.finite_toSet.to_subtype
  have hwf := Finite.wellFounded_of_trans_of_irrefl fun t s : {s // s ∈ found} =>
    Relation.TransGen (Preempts model found) t.1 s.1
  have hall (s : {s // s ∈ found}) : ∃ t ∈ found, (∀ u ∈ found, ¬ model.StandsInFor u t) ∧
      Relation.ReflTransGen (Preempts model found) t s.1 := by
    induction s using hwf.induction with
    | _ s ih =>
      by_cases hfree : ∀ u ∈ found, ¬ model.StandsInFor u s.1
      · exact ⟨s.1, s.2, hfree, .refl⟩
      · simp only [not_forall, not_not] at hfree
        obtain ⟨u, hu, hstandsIn⟩ := hfree
        have hpreempts : Preempts model found u s.1 := ⟨hu, s.2, hstandsIn⟩
        obtain ⟨t, ht, hfree, hchain⟩ := ih ⟨u, hu⟩ (.single hpreempts)
        exact ⟨t, ht, hfree, hchain.tail hpreempts⟩
  exact hall ⟨s, hs⟩

/-- The steps of a model are in the order of their places. -/
theorem Model.Placed.pairwise (hplaced : model.Placed) :
    model.steps.Pairwise fun s t => s.id.index < t.id.index := by
  have hindex (i : Nat) (hi : i < model.steps.length) : model.steps[i].id = ⟨i⟩ :=
    hplaced.step_id (List.getElem?_eq_getElem hi)
  refine List.pairwise_iff_getElem.mpr fun i j hi hj hij => ?_
  rw [hindex i hi, hindex j hj]
  exact hij

/-- **Who is not preempted is left.** -/
theorem outermost_of_mem {left : List (Step C)}
    (hordered : left.Pairwise fun s t => s.id.index < t.id.index)
    (hmem : ∀ s, s ∈ left ↔ s ∈ found ∧ ∀ t ∈ found, ¬ model.StandsInFor t s) :
    Outermost model found left := by
  have hcovers (hacyclic : ∀ s, ¬ Relation.TransGen (Preempts model found) s s) :
      ∀ s ∈ found, ∃ t ∈ left, Relation.ReflTransGen (Preempts model found) t s := by
    intro s hs
    obtain ⟨t, ht, hfree, hchain⟩ := exists_outermost hacyclic hs
    exact ⟨t, (hmem t).mpr ⟨ht, hfree⟩, hchain⟩
  refine ⟨hordered, hmem, fun s t hchain hs => ?_, hcovers, fun hnil hne => ?_⟩
  · obtain ⟨u, -, hu, -, hstandsIn⟩ := Relation.TransGen.tail'_iff.mp hchain
    exact ((hmem s).mp hs).2 u hu hstandsIn
  · by_contra hacyclic
    obtain ⟨s, hs⟩ := List.exists_mem_of_ne_nil found hne
    obtain ⟨t, ht, -⟩ := hcovers (not_exists.mp hacyclic) s hs
    rw [hnil] at ht
    exact List.not_mem_nil ht

end Left

section Preemption

variable {σ : Type} (eval : C.Guard → StateM σ Bool) (model : Model C) (c : Cursor)
  (actor : String) (type : MessageType) (scope : Scope)

/-- **The candidates** are the steps that pass and are not preempted. -/
theorem outermost_of_candidates (hplaced : model.Placed) {left : List (Step C)} {w : σ}
    (h : ((candidates eval model c actor type scope).run w).1 = .ok left) :
    Outermost model (passing eval model c actor type scope w) left := by
  obtain ⟨found, hfound, h⟩ := run_bind_eq_ok h
  obtain ⟨replaced, hreplaced, h⟩ := run_bind_eq_ok h
  cases h
  obtain rfl : found = passing eval model c actor type scope w := eq_of_reachable hfound
  have hsub := passing_sublist eval model c actor type scope w
  refine outermost_of_mem ?_ fun s => ?_
  · exact hplaced.pairwise.sublist (List.filter_sublist.trans hsub)
  · rw [mem_of_replacedBy hreplaced]
    refine and_congr_right fun hs => forall₂_congr fun t ht => ?_
    refine ⟨fun h hstandsIn => h s hstandsIn rfl, fun h target hstandsIn hid => ?_⟩
    exact h (hplaced.standsInFor_of_id (hsub.subset hs) hstandsIn hid)

/-- The only step that is left takes the message; several are reported. -/
theorem resolve_run (w : σ) : ((resolve eval model c actor type scope).run w).1 =
    ((candidates eval model c actor type scope).run w).1.bind fun
      | [] => .ok none
      | [s] => .ok (some s)
      | left => .error (.ambiguousReaction type.name (left.map (·.name))) := by
  unfold resolve
  rw [run_bind_state]
  rcases ((candidates eval model c actor type scope).run w).1 with e | _ | ⟨s, _ | ⟨t, rest⟩⟩ <;>
    rfl

end Preemption

/-- **Preemption.** Looking for candidates fails only because of a position that refers to a step
nobody has. Otherwise it comes to those steps, in the order of the model, that can take the message
and that no other one stands in for which can take it, too. If that is none although some step could
take the message, steps that could take it stand in for one another in a circle; in every other case
the message is taken or reported to be ambiguous. -/
theorem candidates_preempt {model : Model C} (hbuilt : model.Built) {σ : Type}
    (eval : C.Guard → StateM σ Bool) (w : σ) (c : Cursor) (actor : String) (type : MessageType)
    (scope : Scope) :
    let found := passing eval model c actor type scope w
    (∀ e, ((candidates eval model c actor type scope).run w).1 = .error e → model.Lacks e) ∧
      (∀ left, ((candidates eval model c actor type scope).run w).1 = .ok left →
        Outermost model found left ∧
        (found ≠ [] →
          (left = [] ∧ ∃ s, Relation.TransGen (Preempts model found) s s) ∨
          (∃ s ∈ found, left = [s] ∧
            ((resolve eval model c actor type scope).run w).1 = .ok (some s)) ∨
          (2 ≤ left.length ∧ ((resolve eval model c actor type scope).run w).1 =
            .error (.ambiguousReaction type.name (left.map (·.name)))))) ∧
      ((∀ g, model.HasGuard g → (eval g w).2 = w) → found = model.steps.filter fun s =>
        s.fits c actor type scope && s.isReachedIn eval model c w) := by
  have hplaced := placed_of_build hbuilt
  refine ⟨fun e he => ?_, fun left hleft => ?_, passing_of_quiet⟩
  · rw [← hoist_candidates] at he
    exact (candidates_lacks c actor type scope).hoist _ he
  · have houtermost := outermost_of_candidates eval model c actor type scope hplaced hleft
    have hresolve := resolve_run eval model c actor type scope w
    rw [hleft] at hresolve
    refine ⟨houtermost, fun hne => ?_⟩
    rcases left with _ | ⟨s, _ | ⟨t, rest⟩⟩
    · exact .inl ⟨rfl, houtermost.circle rfl hne⟩
    · have hs := ((houtermost.mem s).mp List.mem_cons_self).1
      exact .inr (.inl ⟨s, hs, rfl, hresolve⟩)
    · exact .inr (.inr ⟨by simp, hresolve⟩)

/-- Of the dish, the soup and the last bowl that a hungry guest may be served, the last bowl is
left. Where the riddle is to go on with the hen, both the hen and the egg could take it, and neither
is left. -/
theorem Inn.candidates_preempt_serving :
    let model := application.model ()
    let eval : (code signature).Guard → StateM Unit Bool := fun _ => pure true
    let served := passing eval model { latest := some ⟨0⟩ } "user" serveType .normal ()
    let riddled := passing eval model { latest := some ⟨0⟩, continueAt := some ⟨5⟩ } "user"
      riddleType .normal ()
    served = [stepAt 1, stepAt 3, stepAt 4] ∧ Outermost model served [stepAt 4] ∧
      (∃ s ∈ served, [stepAt 4] = [s] ∧
        ((resolve eval model { latest := some ⟨0⟩ } "user" serveType .normal).run ()).1 =
          .ok (some s)) ∧
      riddled = [stepAt 5, stepAt 6] ∧ Outermost model riddled [] ∧
      ∃ s, Relation.TransGen (Preempts model riddled) s s := by
  intro model eval served riddled
  have hserved : served = [stepAt 1, stepAt 3, stepAt 4] := rfl
  have hriddled : riddled = [stepAt 5, stepAt 6] := rfl
  obtain ⟨-, hserve, -⟩ := candidates_preempt (built ()) eval () { latest := some ⟨0⟩ } "user"
    serveType .normal
  obtain ⟨-, hriddle, -⟩ := candidates_preempt (built ()) eval ()
    { latest := some ⟨0⟩, continueAt := some ⟨5⟩ } "user" riddleType .normal
  obtain ⟨hbowl, htaken⟩ := hserve [stepAt 4] rfl
  obtain ⟨hnone, -⟩ := hriddle [] rfl
  refine ⟨hserved, hbowl, ?_, hriddled, hnone, hnone.circle rfl nofun⟩
  rcases htaken nofun with ⟨hnil, -⟩ | htaken | ⟨htwo, -⟩
  · cases hnil
  · exact htaken
  · exact absurd htwo (by decide)

end UseCaseEngine
