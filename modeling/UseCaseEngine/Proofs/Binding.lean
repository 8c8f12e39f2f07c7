import Mathlib.Data.List.Infix
import UseCaseEngine.Example.Office

/-!
# Who a step is bound to

The kind of a step tells which actor it is bound to by default (`system`, `on`, `on_exception`).
Binding it to an actor (`as_actor`) appends the actor to the list, unless the list holds the default
actor alone, who then gives way. Nothing else tells whether the default is still in place: an actor
who was given by name and happens to be the default one gives way just the same. What was meant is
that the first call replaces the default one, and that no other call replaces anybody.

* `StepSpec.bindings`: what the names given to a step come to; `StepSpec.asActor_bindings` is what
  one more name does.
* `exists_replicate_append`: which names give way.
* **`actors_of_declared`**: who a step is bound to, when these are the actors given, and which
  binding is lost otherwise.
-/

namespace UseCaseEngine

variable {C : Code}

namespace StepSpec

/-- The step is declared with these names, in this order, in place of the default actor of its
kind. -/
inductive Declared : (default : String) → (names : List String) → StepSpec C → Prop
  | system (name : String) : Declared Actor.system [] (.system name)
  | on (name : String) (type : MessageType) : Declared Actor.user [] (.on name type)
  | onFailure (name : String) (type : MessageType) : Declared Actor.system [] (.onFailure name type)
  | asActor {default : String} {names : List String} {s : StepSpec C} (actor : String) :
      Declared default names s → Declared default (names ++ [actor]) (s.asActor actor)
  | reacting {default : String} {names : List String} {s : StepSpec C} (reaction : Reaction C) :
      Declared default names s → Declared default names (s.reacting reaction)
  | onlyIf {default : String} {names : List String} {s : StepSpec C} (guard : C.Guard) :
      Declared default names s → Declared default names (s.onlyIf guard)
  | reactWhile {default : String} {names : List String} {s : StepSpec C} (guard : C.Guard) :
      Declared default names s → Declared default names (s.reactWhile guard)
  | publishingTo {default : String} {names : List String} {s : StepSpec C} (actor : String) :
      Declared default names s → Declared default names (s.publishingTo actor)

/-- What the names come to: those of the default actor at the front give way to the other ones. -/
def bindings (default : String) (names : List String) : List String :=
  match names.dropWhile (· == default) with
  | [] => [default]
  | first :: rest => first :: rest

theorem bindings_of_replicate {default : String} {kept : List String}
    (hkept : kept.head? ≠ some default) (n : Nat) :
    bindings default (List.replicate n default ++ kept) =
      if kept = [] then [default] else kept := by
  have hdrop : (List.replicate n default ++ kept).dropWhile (· == default) = kept := by
    rw [List.dropWhile_append_of_pos fun a ha => by simp [List.eq_of_mem_replicate ha]]
    cases kept with
    | nil => rfl
    | cons first rest =>
      have hne : first ≠ default := fun h => hkept (congrArg some h)
      rw [List.dropWhile_cons_of_neg (by simpa using hne)]
  unfold bindings
  rw [hdrop]
  cases kept <;> rfl

/-- The names of the default actor at the front, and the other ones. -/
theorem exists_replicate_append (default : String) (names : List String) :
    ∃ n kept, names = List.replicate n default ++ kept ∧ kept.head? ≠ some default := by
  induction names with
  | nil => exact ⟨0, [], rfl, nofun⟩
  | cons first rest ih =>
    by_cases hfirst : first = default
    · obtain ⟨n, kept, rfl, hkept⟩ := ih
      exact ⟨n + 1, kept, by rw [hfirst, List.replicate_succ, List.cons_append], hkept⟩
    · exact ⟨0, first :: rest, rfl, fun h => hfirst (Option.some.inj h)⟩

/-- **One more name** takes the place of the default actor, or is appended. -/
theorem asActor_bindings (default : String) (names : List String) (actor : String) :
    bindings default (names ++ [actor]) =
      if bindings default names = [default] then [actor]
      else bindings default names ++ [actor] := by
  obtain ⟨n, kept, rfl, hkept⟩ := exists_replicate_append default names
  rw [bindings_of_replicate hkept]
  cases kept with
  | nil =>
    rw [if_pos rfl, if_pos rfl, List.append_nil]
    by_cases hactor : actor = default
    · subst hactor
      rw [← List.replicate_succ', ← List.append_nil (List.replicate _ _),
        bindings_of_replicate hkept]
      rfl
    · have hhead : [actor].head? ≠ some default := by simpa using hactor
      exact bindings_of_replicate hhead n
  | cons first rest =>
    have hfirst : first ≠ default := fun h => hkept (congrArg some h)
    have hne : first :: rest ≠ [default] := fun h => hfirst (List.cons.inj h).1
    rw [if_neg (List.cons_ne_nil _ _), if_neg hne, List.append_assoc]
    have hhead : (first :: rest ++ [actor]).head? ≠ some default := hkept
    exact (bindings_of_replicate hhead n).trans (if_neg (List.cons_ne_nil _ _))

namespace Declared

variable {default : String} {names : List String} {s : StepSpec C}

/-- The kind of a step stays the same, and with it the default actor. -/
theorem defaultActor_eq (hs : s.Declared default names) : s.defaultActor = default := by
  induction hs with
  | system | on | onFailure => rfl
  | asActor _ _ ih | reacting _ _ ih | onlyIf _ _ ih | reactWhile _ _ ih | publishingTo _ _ ih =>
    exact ih

/-- **The actors of a step** are what the names given to it come to. -/
theorem actors_eq (hs : s.Declared default names) : s.actors = bindings default names := by
  induction hs with
  | system | on | onFailure => rfl
  | asActor actor hs ih =>
    rw [asActor_bindings, ← ih, ← hs.defaultActor_eq]
    rfl
  | reacting _ _ ih | onlyIf _ _ ih | reactWhile _ _ ih | publishingTo _ _ ih => exact ih

end Declared

/-- What names come to is the end of their list. -/
theorem bindings_isSuffix {default : String} {names : List String} (hgiven : names ≠ []) :
    bindings default names <:+ names := by
  obtain ⟨n, kept, rfl, hkept⟩ := exists_replicate_append default names
  rw [bindings_of_replicate hkept]
  split
  · rename_i hnil
    subst hnil
    rw [List.append_nil] at hgiven ⊢
    obtain ⟨m, rfl⟩ : ∃ m, n = m + 1 := Nat.exists_eq_succ_of_ne_zero (by simpa using hgiven)
    rw [List.replicate_succ']
    exact List.suffix_append _ _
  · exact List.suffix_append _ _

/-- All names count unless the default actor comes first and is followed by another name. -/
theorem bindings_eq_self_iff {default : String} {names : List String} (hgiven : names ≠ []) :
    bindings default names = names ↔ names.head? ≠ some default ∨ names = [default] := by
  obtain ⟨n, kept, rfl, hkept⟩ := exists_replicate_append default names
  rw [bindings_of_replicate hkept]
  cases n with
  | zero =>
    have hne : kept ≠ [] := hgiven
    simp [hne, hkept]
  | succ n =>
    cases kept with
    | nil => cases n <;> simp [List.replicate_succ]
    | cons first rest =>
      have hlength : (first :: rest).length <
          (List.replicate (n + 1) default ++ first :: rest).length := by simp
      constructor
      · intro h
        rw [if_neg (List.cons_ne_nil _ _)] at h
        exact absurd (congrArg List.length h) hlength.ne
      · rintro (h | h)
        · exact absurd rfl h
        · simp [List.replicate_succ] at h

/-- Of the names given, only that of the default actor can be lost, and only where it is followed
by other ones and not given again. -/
theorem notMem_bindings_iff {default : String} {names : List String} {actor : String}
    (hactor : actor ∈ names) :
    actor ∉ bindings default names ↔ actor = default ∧ ∃ n kept,
      names = List.replicate (n + 1) default ++ kept ∧ kept ≠ [] ∧ default ∉ kept := by
  constructor
  · intro hlost
    obtain ⟨n, kept, rfl, hkept⟩ := exists_replicate_append default names
    rw [bindings_of_replicate hkept] at hlost
    have hfront (h : actor ∉ kept) : actor = default ∧ n ≠ 0 := by
      have := (List.mem_append.mp hactor).resolve_right h
      exact ⟨List.eq_of_mem_replicate this, (List.mem_replicate.mp this).1⟩
    split at hlost
    · rename_i hnil
      obtain ⟨rfl, -⟩ := hfront (by simp [hnil])
      exact absurd List.mem_cons_self hlost
    · rename_i hne
      obtain ⟨rfl, hn⟩ := hfront hlost
      obtain ⟨m, rfl⟩ := Nat.exists_eq_succ_of_ne_zero hn
      exact ⟨rfl, m, kept, rfl, hne, hlost⟩
  · rintro ⟨rfl, n, kept, rfl, hne, hlost⟩
    have hkept : kept.head? ≠ some actor := fun h => hlost (List.mem_of_mem_head? h)
    rw [bindings_of_replicate hkept, if_neg hne]
    exact hlost

end StepSpec

/-- **Who a step is bound to.** Where a step is declared with names, the step at its place in a
model is bound to the names that follow those of the default actor at the front, and to the default
actor if there are no such names. These are all names given, in their order, exactly if the first
one is not the default actor, or there is no other one. Nobody else is bound; and a name that is
given is lost exactly if it is the default actor's, comes first, and is followed only by other
ones. -/
theorem actors_of_declared {default : String} {names : List String} {s : StepSpec C}
    (hs : s.Declared default names) (hgiven : names ≠ []) (id : StepId) (useCase : UseCaseId)
    (flow : FlowId) (previous : Option StepId) :
    let step := s.place id useCase flow previous
    step.actors = StepSpec.bindings default names ∧
      (step.actors = names ↔ names.head? ≠ some default ∨ names = [default]) ∧
      step.actors <:+ names ∧
      (∀ actor, step.isBoundTo actor = true → actor ∈ names) ∧
      ∀ actor ∈ names, step.isBoundTo actor = false ↔ actor = default ∧ ∃ n kept,
        names = List.replicate (n + 1) default ++ kept ∧ kept ≠ [] ∧ default ∉ kept := by
  intro step
  have hactors : step.actors = StepSpec.bindings default names := hs.actors_eq
  have hbound (actor : String) : step.isBoundTo actor = true ↔
      actor ∈ StepSpec.bindings default names := by
    unfold Step.isBoundTo
    rw [hactors, List.contains_iff_mem]
  have hsuffix : StepSpec.bindings default names <:+ names := StepSpec.bindings_isSuffix hgiven
  refine ⟨hactors, ?_, ?_, fun actor h => ?_, fun actor hactor => ?_⟩
  · rw [hactors]
    exact StepSpec.bindings_eq_self_iff hgiven
  · rw [hactors]
    exact hsuffix
  · exact hsuffix.subset ((hbound actor).mp h)
  · rw [← Bool.not_eq_true, hbound]
    exact StepSpec.notMem_bindings_iff hactor

namespace Office

/-- A contract that is signed by two clerks. -/
def signedByClerks : StepSpec (code signature) :=
  ((StepSpec.on "Sign" letterType).asActor "Clerk").asActor "Manager"

/-- A contract that is signed by the user and a clerk. -/
def signedByUser : StepSpec (code signature) :=
  ((StepSpec.on "Sign" letterType).asActor Actor.user).asActor "Clerk"

theorem declared_signedByClerks : signedByClerks.Declared Actor.user ["Clerk", "Manager"] :=
  ((StepSpec.Declared.on _ _).asActor "Clerk").asActor "Manager"

theorem declared_signedByUser : signedByUser.Declared Actor.user [Actor.user, "Clerk"] :=
  ((StepSpec.Declared.on _ _).asActor Actor.user).asActor "Clerk"

/-- A model in which the user and a clerk sign. -/
def signing : ModelSpec (code signature) :=
  { name := "office"
    actors := [{ name := "Clerk" }]
    useCases := [{ name := "Work", flows := [{ steps := [signedByUser] }] }] }

end Office

/-- Both clerks may sign. Where the user was to sign, too, only the clerk may. -/
theorem Office.actors_of_contracts :
    (signedByClerks.place ⟨0⟩ ⟨0⟩ ⟨0⟩ none).actors = ["Clerk", "Manager"] ∧
      (signedByUser.place ⟨0⟩ ⟨0⟩ ⟨0⟩ none).isBoundTo Actor.user = false := by
  obtain ⟨-, hall, -⟩ := actors_of_declared declared_signedByClerks (List.cons_ne_nil _ _) ⟨0⟩ ⟨0⟩
    ⟨0⟩ none
  obtain ⟨-, -, -, -, hlost⟩ := actors_of_declared declared_signedByUser (List.cons_ne_nil _ _) ⟨0⟩
    ⟨0⟩ ⟨0⟩ none
  refine ⟨hall.mpr (.inl (by decide)), (hlost Actor.user List.mem_cons_self).mpr ?_⟩
  exact ⟨rfl, 0, ["Clerk"], rfl, List.cons_ne_nil _ _, by decide⟩

/-- The user is not among the actors of a contract that was to be signed by the user and a clerk,
and cannot sign it in the model. -/
theorem Office.user_lost :
    signedByUser.Declared Actor.user [Actor.user, "Clerk"] ∧
      signedByUser.actors = ["Clerk"] ∧ signedByUser.actors ≠ [Actor.user, "Clerk"] ∧
      ∃ model, signing.build = .ok model ∧
        ∃ step, model.stepNamed? "Sign" = some step ∧ step.isBoundTo Actor.user = false := by
  refine ⟨declared_signedByUser, rfl, by decide, signing.assemble, ?_⟩
  refine ⟨(ModelSpec.build_eq_ok_iff _ _).mpr ⟨rfl, rfl⟩, ?_⟩
  exact ⟨_, rfl, by decide⟩

end UseCaseEngine
