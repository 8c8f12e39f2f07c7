import UseCaseEngine.Proofs.Publishing
import UseCaseEngine.Proofs.Quiescence
import UseCaseEngine.Proofs.Resolutions

/-!
# How long a call goes on

A call that reacts to a message executes a step with it and goes on with system steps; a run starts
with these. Each of these steps may fail, and then one that handles failures may react right after
it. The runner's settings limit how many system steps are executed: a call that finds another one
after the last that is allowed fails (`InfiniteRepetition`), and leaves it alone. Steps that handle
failures do not count; there is one at most for each of the other ones.

* `Course.noted`: which steps may react in a call, and how much the call notes at most.
* `Session.Rounds`: a session executes so many system steps.
* `continueWith_of_rounds`: it goes on with what is left to it then.
* `rounds_of_continueWith`: it fails for a step too many only once it has executed all that are
  allowed, or because an inbox failed like this.
* **`ceiling_of_call`**: the shape of every call, and when it goes on for too long.
-/

namespace UseCaseEngine

variable {S : Signature}

/-! ## The shape of a call -/

/-- What a part of a call noted: these steps reacted, and were triggered before, and it is no longer
than this. -/
structure Noted (r : RunnerId S) (events : List (Event S))
    (reacted : List (StepId × Message × Output)) (bound : Nat) : Prop where
  reactions : events.filterMap (Event.reaction? r) = reacted
  triggers : events.filterMap (Event.trigger? r) = reacted.map fun x => (x.1, x.2.1)
  length : events.length ≤ bound

section Noted

variable {r : RunnerId S} {es fs : List (Event S)} {xs ys : List (StepId × Message × Output)}
  {k l : Nat}

theorem Noted.append (hes : Noted r es xs k) (hfs : Noted r fs ys l) :
    Noted r (es ++ fs) (xs ++ ys) (k + l) where
  reactions := by rw [List.filterMap_append, hes.reactions, hfs.reactions]
  triggers := by rw [List.filterMap_append, hes.triggers, hfs.triggers, List.map_append]
  length := by
    rw [List.length_append]
    exact Nat.add_le_add hes.length hfs.length

theorem Noted.mono (h : Noted r es xs k) (hkl : k ≤ l) : Noted r es xs l :=
  ⟨h.reactions, h.triggers, h.length.trans hkl⟩

end Noted

section Shape

variable (model : Model (code S))

/-- A step that handles no failures reacts to the message. If it fails, a step that handles failures
may react to what failed, right after it. -/
inductive Exchange (m : Message) : List (StepId × Message × Output) → Prop where
  | alone {step : Step (code S)} (hstep : step ∈ model.steps)
      (hplain : step.handlesFailure = false) (output : Output) : Exchange m [(step.id, m, output)]
  | handled {step handler : Step (code S)} (hstep : step ∈ model.steps)
      (hplain : step.handlesFailure = false) (hhandler : handler ∈ model.steps)
      (hhandles : handler.handlesFailure = true) (failure : Failure) (output : Output) :
      Exchange m [(step.id, m, .error failure), (handler.id, failure.condition, output)]

/-- At most so many system steps react, and those that handle their failures. -/
inductive Exchanges : Nat → List (StepId × Message × Output) → Prop where
  | none (n : Nat) : Exchanges n []
  | next {n : Nat} {first rest : List (StepId × Message × Output)}
      (hfirst : Exchange model .systemEvent first) (hrest : Exchanges n rest) :
      Exchanges (n + 1) (first ++ rest)

variable {model} {l : List (StepId × Message × Output)}

theorem Exchange.length_le {m : Message} (h : Exchange model m l) : l.length ≤ 2 := by
  cases h <;> simp

theorem Exchanges.length_le {n : Nat} (h : Exchanges model n l) : l.length ≤ 2 * n := by
  induction h with
  | none n => exact Nat.zero_le _
  | next hfirst hrest ih =>
    have := hfirst.length_le
    rw [List.length_append]
    omega

end Shape

/-- Which steps may react in a call on a runner: a step that takes the message, if the call reacts
to one, and then system steps, at most as many as the settings allow. -/
def Call.Shape (app : Application S) (x : Runner S) (limit : Nat) :
    Call S → List (StepId × Message × Output) → Prop
  | .react m, reacted => reacted = [] ∨
      ∃ name first rest, x.model = some name ∧ reacted = first ++ rest ∧
        Exchange (app.model name) m first ∧ Exchanges (app.model name) limit rest
  | .run name, reacted => Exchanges (app.model name) limit reacted

/-- At most two steps react for each step that takes the message or a system event. -/
theorem Call.Shape.length_le {app : Application S} {x : Runner S} {limit : Nat} {c : Call S}
    {reacted : List (StepId × Message × Output)} (h : c.Shape app x limit reacted) :
    reacted.length ≤ 2 * (limit + 1) := by
  cases c with
  | run name =>
    have := Exchanges.length_le h
    omega
  | react m =>
    rcases h with rfl | ⟨name, first, rest, -, rfl, hfirst, hrest⟩
    · exact Nat.zero_le _
    · have := hfirst.length_le
      have := hrest.length_le
      rw [List.length_append]
      omega

section Rules

variable {model : Model (code S)} {r : RunnerId S} {step : Step (code S)} {m : Message}
  {events : List (Event S)}

theorem Found.noted {type : MessageType} {scope : Scope}
    {result : Except RunnerError (Option (Step (code S)))}
    (h : Found model r type scope result events) : Noted r events [] 1 := by
  cases h with
  | failed h => exact ⟨rfl, rfl, Nat.zero_le 1⟩
  | none => exact ⟨rfl, rfl, Nat.zero_le 1⟩
  | some h => exact ⟨rfl, rfl, Nat.le_refl 1⟩

theorem Concluded.noted {output : Output} {result : Except RunnerError Reacted}
    (h : Concluded model r step m output result events) : Noted r events [] 2 := by
  cases h <;> exact ⟨rfl, rfl, by simp⟩

theorem Published.noted {installed : Bool} {message : Option Message}
    (h : Published r installed message events) : Noted r events [] 1 := by
  cases h <;> exact ⟨rfl, rfl, by simp⟩

/-- A step that is offered something reacts once, unless it is suppressed. -/
theorem Offered.noted {result : Except RunnerError Reacted}
    (h : Offered model r step m result events) :
    (result = .ok .suppressed ∧ Noted r events [] 5) ∨
      ∃ output, Noted r events [(step.id, m, output)] 5 ∧
        ∀ failure, result = .ok (.failed failure) → output = .error failure := by
  cases h with
  | suppressed => exact .inl ⟨rfl, rfl, rfl, by simp⟩
  | @reacted output result concluded raw state h =>
    have hreacted : Noted r [.offered r step.id m, .triggered r step.id m raw,
        .reacted r step.id m output state] [(step.id, m, output)] 3 :=
      ⟨by simp [Event.reaction?, List.filterMap_cons],
        by simp [Event.trigger?, List.filterMap_cons], Nat.le_refl 3⟩
    refine .inr ⟨output, hreacted.append h.noted, fun failure hresult => ?_⟩
    cases h with
    | failed => cases hresult; rfl
    | dangling => cases hresult
    | done => cases hresult
    | delivered hrefers hinbox message answers reply => cases reply <;> cases hresult

/-- At most one step that handles failures reacts to a failure. -/
theorem Handled.noted {failure : Failure} {result : Except RunnerError (Option Message)}
    (h : Handled model r step failure result events) :
    Noted r events [] 6 ∨ ∃ handler output, handler ∈ model.steps ∧
      handler.handlesFailure = true ∧
        Noted r events [(handler.id, failure.condition, output)] 6 := by
  have hboth {handler : Step (code S)} {found offered : List (Event S)}
      {result : Except RunnerError Reacted}
      (hfound : Found model r failure.type .failure (.ok (some handler)) found)
      (hoffered : Offered model r handler failure.condition result offered) :
      Noted r (found ++ offered) [] 6 ∨ ∃ handler output, handler ∈ model.steps ∧
        handler.handlesFailure = true ∧
          Noted r (found ++ offered) [(handler.id, failure.condition, output)] 6 := by
    rcases hoffered.noted with ⟨-, hnoted⟩ | ⟨output, hnoted, -⟩
    · exact .inl (hfound.noted.append hnoted)
    · have hnoted := hfound.noted.append hnoted
      cases hfound with
      | some heligible => exact .inr ⟨handler, output, heligible.1, heligible.2.1, hnoted⟩
  cases h with
  | unresolved hfound => exact .inl (hfound.noted.mono (by omega))
  | uncaught hfound => exact .inl (hfound.noted.mono (by omega))
  | suppressed hfound hoffered => exact hboth hfound hoffered
  | broken hfound hoffered => exact hboth hfound hoffered
  | failed hfound hoffered => exact hboth hfound hoffered
  | handled hfound hoffered => exact hboth hfound hoffered

/-- **A step that is executed** reacts, and one that handles its failure may react then. -/
theorem Executed.noted {type : MessageType} {found : List (Event S)}
    {result : Except RunnerError (Option (Option Message))}
    (hfound : Found model r type .normal (.ok (some step)) found)
    (h : Executed model r step m result events) :
    ∃ reacted, Noted r (found ++ events) reacted 12 ∧
      (reacted = [] ∧ result = .ok none ∨ Exchange model m reacted) := by
  have heligible : step.handlesFailure = false ∧ step ∈ model.steps := by
    cases hfound with
    | some heligible =>
      have hadmits := heligible.2.1
      simp only [Scope.admits, Bool.and_eq_true, Bool.not_eq_true'] at hadmits
      exact ⟨hadmits.1, heligible.1⟩
  obtain ⟨hplain, hstep⟩ := heligible
  have halone {result : Except RunnerError Reacted} {events : List (Event S)}
      (h : Offered model r step m result events) (hresult : result ≠ .ok .suppressed) :
      ∃ reacted, Noted r (found ++ events) reacted 12 ∧ Exchange model m reacted := by
    rcases h.noted with ⟨hsuppressed, -⟩ | ⟨output, hnoted, -⟩
    · exact absurd hsuppressed hresult
    · exact ⟨_, (hfound.noted.append hnoted).mono (by omega), .alone hstep hplain output⟩
  cases h with
  | broken h =>
    obtain ⟨reacted, hnoted, hexchange⟩ := halone h nofun
    exact ⟨reacted, hnoted, .inr hexchange⟩
  | published h =>
    obtain ⟨reacted, hnoted, hexchange⟩ := halone h nofun
    exact ⟨reacted, hnoted, .inr hexchange⟩
  | uncaught hhandler h =>
    rw [hplain] at hhandler
    cases hhandler
  | suppressed h =>
    rcases h.noted with ⟨-, hnoted⟩ | ⟨output, hnoted, -⟩
    · exact ⟨[], (hfound.noted.append hnoted).mono (by omega), .inl ⟨rfl, rfl⟩⟩
    · exact ⟨_, (hfound.noted.append hnoted).mono (by omega), .inr (.alone hstep hplain output)⟩
  | @failed failure result offered handled hhandler hoffered h =>
    rcases hoffered.noted with ⟨hsuppressed, -⟩ | ⟨output, hoffer, hfailed⟩
    · cases hsuppressed
    obtain rfl := hfailed failure rfl
    rcases h.noted with hnone | ⟨handler, again, hmem, hhandles, hone⟩
    · exact ⟨_, hfound.noted.append (hoffer.append hnone),
        .inr (.alone hstep hplain (.error failure))⟩
    · exact ⟨_, hfound.noted.append (hoffer.append hone),
        .inr (.handled hstep hplain hmem hhandles failure again)⟩

/-- **System steps react one after another**, by induction on those that are executed. -/
theorem Continued.noted {installed : Bool} {limit left : Nat} {pending : Option Message}
    {result : CallResult} (h : Continued model r installed limit left pending result events) :
    ∃ reacted, Noted r events reacted (13 * left + 1) ∧ Exchanges model left reacted := by
  have hlast {step : Step (code S)} {left : Nat} {found executed : List (Event S)}
      {result : Except RunnerError (Option (Option Message))}
      (hfound : Found model r .systemEvent .normal (.ok (some step)) found)
      (h : Executed model r step .systemEvent result executed) :
      ∃ reacted, Noted r (found ++ executed) reacted (13 * (left + 1) + 1) ∧
        Exchanges model (left + 1) reacted := by
    obtain ⟨reacted, hnoted, ⟨rfl, -⟩ | hexchange⟩ := Executed.noted hfound h
    · exact ⟨[], hnoted.mono (by omega), .none _⟩
    · exact ⟨reacted, hnoted.mono (by omega),
        List.append_nil reacted ▸ .next hexchange (.none left)⟩
  induction h with
  | unresolved hfound => exact ⟨[], hfound.noted.mono (by omega), .none _⟩
  | settled hfound => exact ⟨[], hfound.noted.mono (by omega), .none _⟩
  | exhausted hfound => exact ⟨[], hfound.noted.mono (by omega), .none _⟩
  | broken hfound h => exact hlast hfound h
  | suppressed hfound h => exact hlast hfound h
  | executed hfound h hpublished hrest ih =>
    obtain ⟨reacted, hnoted, ⟨-, hsuppressed⟩ | hexchange⟩ := Executed.noted hfound h
    · cases hsuppressed
    obtain ⟨later, hlater, hexchanges⟩ := ih
    refine ⟨reacted ++ later, ?_, .next hexchange hexchanges⟩
    rw [← List.append_assoc]
    exact (hnoted.append (hpublished.noted.append hlater)).mono (by omega)

end Rules

/-- **The shape of a call**: which steps react in it, and how much it notes. -/
theorem Course.noted {app : Application S} {r : RunnerId S} {x : Runner S} {c : Call S}
    {result : CallResult} {trace : List (Event S)} (h : Course app r x c result trace) :
    ∃ reacted, Noted r trace reacted (13 * (x.settings.maxContinuations.toNat + 1)) ∧
      c.Shape app x x.settings.maxContinuations.toNat reacted := by
  cases h with
  | idle m h => exact ⟨[], ⟨rfl, rfl, Nat.zero_le _⟩, .inl rfl⟩
  | @reacted m name result events hrunning hmodel h =>
    have hlast {step : Step (code S)} {found executed : List (Event S)}
        {result : Except RunnerError (Option (Option Message))}
        (hfound : Found (app.model name) r m.type .normal (.ok (some step)) found)
        (h : Executed (app.model name) r step m result executed) :
        ∃ reacted, Noted r (found ++ executed) reacted
            (13 * (x.settings.maxContinuations.toNat + 1)) ∧
          Call.Shape app x x.settings.maxContinuations.toNat (.react m) reacted := by
      obtain ⟨reacted, hnoted, ⟨rfl, -⟩ | hexchange⟩ := Executed.noted hfound h
      · exact ⟨[], hnoted.mono (by omega), .inl rfl⟩
      · exact ⟨reacted, hnoted.mono (by omega), .inr ⟨name, reacted, [], hmodel,
          (List.append_nil reacted).symm, hexchange, .none _⟩⟩
    cases h with
    | unresolved hfound => exact ⟨[], hfound.noted.mono (by omega), .inl rfl⟩
    | unhandled hfound => exact ⟨[], hfound.noted.mono (by omega), .inl rfl⟩
    | broken hfound h => exact hlast hfound h
    | suppressed hfound h => exact hlast hfound h
    | executed hfound h hrest =>
      obtain ⟨reacted, hnoted, ⟨-, hsuppressed⟩ | hexchange⟩ := Executed.noted hfound h
      · cases hsuppressed
      obtain ⟨later, hlater, hexchanges⟩ := hrest.noted
      refine ⟨reacted ++ later, ?_, .inr ⟨name, reacted, later, hmodel, rfl, hexchange,
        hexchanges⟩⟩
      rw [← List.append_assoc]
      exact (hnoted.append hlater).mono (by omega)
  | @ran name result events h =>
    have hran : Noted r [.ran r name] [] 1 := ⟨rfl, rfl, Nat.le_refl 1⟩
    cases h with
    | failed h =>
      obtain ⟨reacted, hnoted, hexchanges⟩ := h.noted
      exact ⟨reacted, (hran.append hnoted).mono (by omega), hexchanges⟩
    | settled h hpublished =>
      obtain ⟨reacted, hnoted, hexchanges⟩ := h.noted
      refine ⟨reacted, ?_, hexchanges⟩
      rw [← List.append_nil reacted]
      exact (hran.append (hnoted.append hpublished.noted)).mono (by omega)

/-! ## Rounds -/

section Session

variable (app : Application S) (calls : Calls S) (s : Session S)

/-- A session executes so many system steps, from one world to another; in each, something is
pending that was published before. -/
inductive Session.Rounds : Nat → Option Message → World S → Option Message → World S → Prop where
  | none (pending : Option Message) (w : World S) : Rounds 0 pending w pending w
  | next {k : Nat} {pending message last : Option Message} {step : Step (code S)}
      {w w₁ w₂ w' : World S}
      (hresolve : (s.resolve app calls .systemEvent .normal).run w = (.ok (some step), w₁))
      (hexecute : (s.execute app calls step .systemEvent).run w₁ = (.ok (some message), w₂))
      (hrest : Rounds k message (s.release app calls pending w₂).2 last w') :
      Rounds (k + 1) pending w last w'

variable {app calls s} {k : Nat} {pending last : Option Message} {w w' : World S}

/-- **After some rounds, a session goes on** with what is left to it. -/
theorem continueWith_of_rounds (h : s.Rounds app calls k pending w last w') (left : Nat) :
    (s.continueWith app calls (k + left) pending).run w =
      (s.continueWith app calls left last).run w' := by
  induction h with
  | none pending w => rw [Nat.zero_add]
  | @next k pending message last step w w₁ w₂ w' hresolve hexecute hrest ih =>
    rw [Nat.succ_add, Session.continueWith_eq_take, take_of_resolve (m := .systemEvent) hresolve,
      Attempt.run_bind, hexecute]
    exact ih

/-- It is done if no step is found then. -/
theorem continueWith_of_settled {v : World S} (h : s.Rounds app calls k pending w last w')
    (hnone : (s.resolve app calls .systemEvent .normal).run w' = (.ok none, v)) (left : Nat) :
    (s.continueWith app calls (k + left) pending).run w = (.ok last, v) := by
  rw [continueWith_of_rounds h]
  unfold Session.continueWith
  rw [Attempt.run_bind, hnone]
  cases left <;> rfl

/-- It fails if a step is found once nothing is left. -/
theorem continueWith_of_exhausted {step : Step (code S)} {v : World S}
    (h : s.Rounds app calls k pending w last w')
    (hresolve : (s.resolve app calls .systemEvent .normal).run w' = (.ok (some step), v)) :
    (s.continueWith app calls k pending).run w =
      (.error (.infiniteRepetition step.name s.limit), v) := by
  have hrounds := continueWith_of_rounds h 0
  rw [Nat.add_zero] at hrounds
  rw [hrounds]
  unfold Session.continueWith
  rw [Attempt.run_bind, hresolve]
  rfl

/-- What holds of the parts of a session holds of its rounds. -/
theorem Session.Rounds.within {R : World S → World S → Prop} (hR : Composes R)
    (hparts : s.Parts app calls (Effect.Within R)) (h : s.Rounds app calls k pending w last w') :
    R w w' := by
  induction h with
  | none pending w => exact hR.refl w
  | @next k pending message last step w w₁ w₂ w' hresolve hexecute hrest ih =>
    have hstep := (eligible_of_resolve app calls s (congrArg Prod.fst hresolve)).1
    have hfound := hparts.resolve .systemEvent .normal w
    have hexecuted := hparts.execute hR.sequential hstep .systemEvent w₁
    rw [hresolve] at hfound
    rw [hexecute] at hexecuted
    exact hR.trans hfound (hR.trans hexecuted (hR.trans (hparts.release hR pending w₂) ih))

end Session

/-! ## Errors for a step too many -/

section Rules

variable {model : Model (code S)} {r : RunnerId S} {step : Step (code S)} {m : Message}
  {events : List (Event S)}

/-- The last of the events is a delivery. -/
def EndsWithDelivery (r : RunnerId S) (events : List (Event S)) : Prop :=
  ∃ before actor m, events = before ++ [.delivered r actor m]

theorem EndsWithDelivery.prepend (h : EndsWithDelivery r events) (earlier : List (Event S)) :
    EndsWithDelivery r (earlier ++ events) := by
  obtain ⟨before, actor, m, rfl⟩ := h
  exact ⟨earlier ++ before, actor, m, (List.append_assoc ..).symm⟩

variable {name : String} {limit : Nat}

theorem Model.Misses.ne {e : RunnerError} (h : model.Misses e) :
    e ≠ .infiniteRepetition name limit := by
  obtain ⟨missing, -, rfl⟩ := h
  exact nofun

theorem Model.FailsToResolve.ne {type : MessageType} {e : RunnerError}
    (h : model.FailsToResolve type e) : e ≠ .infiniteRepetition name limit := by
  cases h with
  | unknown hmisses => exact hmisses.ne
  | ambiguous hseveral => exact nofun

/-- What a step refers to exists, or the error says which step or use case does not. -/
theorem Model.refers_ne {e : RunnerError} (h : model.refers step = .error e) :
    e ≠ .infiniteRepetition name limit := by
  have hresolve (target : String) (h : (model.resolve target).map (fun _ => ()) = .error e) :
      e ≠ .infiniteRepetition name limit := by
    cases htarget : model.resolve target with
    | ok found =>
      rw [htarget] at h
      cases h
    | error e' =>
      rw [htarget] at h
      cases h
      exact Model.Misses.ne ⟨target, misses_of_resolve htarget⟩
  unfold Model.refers at h
  split at h
  · split at h
    · cases h
    · cases h
      exact nofun
  · exact hresolve _ h
  · exact hresolve _ h
  · cases h

/-- The error comes from an inbox: it was the last to be asked. -/
theorem Offered.delivered
    (h : Offered model r step m (.error (.infiniteRepetition name limit)) events) :
    EndsWithDelivery r events := by
  generalize hresult : (Except.error (.infiniteRepetition name limit) :
    Except RunnerError Reacted) = result at h
  cases h with
  | suppressed => cases hresult
  | reacted raw state h =>
    refine EndsWithDelivery.prepend ?_ _
    cases h with
    | failed failure => cases hresult
    | dangling hrefers message answers =>
      cases hresult
      exact absurd rfl (Model.refers_ne hrefers)
    | done hrefers hinbox answers => cases hresult
    | @delivered hrefers actor inbox hinbox message answers reply =>
      exact ⟨[_], actor, message, rfl⟩

theorem Executed.delivered
    (h : Executed model r step m (.error (.infiniteRepetition name limit)) events) :
    EndsWithDelivery r events := by
  generalize hresult : (Except.error (.infiniteRepetition name limit) :
    Except RunnerError (Option (Option Message))) = result at h
  cases h with
  | broken h =>
    cases hresult
    exact h.delivered
  | suppressed h => cases hresult
  | published h => cases hresult
  | uncaught hhandler h => cases hresult
  | @failed failure result offered handled hhandler hoffered h =>
    refine EndsWithDelivery.prepend ?_ _
    cases h with
    | unresolved hfound =>
      cases hresult
      cases hfound with
      | failed hfails => exact absurd rfl hfails.ne
    | uncaught hfound => cases hresult
    | suppressed hfound hoffered => cases hresult
    | broken hfound hoffered =>
      cases hresult
      exact hoffered.delivered.prepend _
    | failed hfound hoffered => cases hresult
    | handled hfound hoffered => cases hresult

end Rules

/-- The latest event of the runner's calls since then is a delivery. -/
def PassesOn (r : RunnerId S) (w w' : World S) : Prop :=
  ∃ events, w'.journal = events ++ w.journal ∧ EndsWithDelivery r (own r events)

theorem PassesOn.prepend {r : RunnerId S} {w w₁ w' : World S} {events : List (Event S)}
    (h : PassesOn r w₁ w') (hjournal : w₁.journal = events ++ w.journal) : PassesOn r w w' := by
  obtain ⟨later, hlater, hends⟩ := h
  refine ⟨later ++ events, by rw [hlater, hjournal, List.append_assoc], ?_⟩
  rw [own_append]
  exact hends.prepend _

section Session

variable {app : Application S} {calls : Calls S} {s : Session S}
  (hperform : ∀ q, Effect.Within (Undisturbed s.runner) (perform app calls q))
include hperform

/-- A session that finds a step does nothing but let guards run. -/
theorem lingers_of_resolve {type : MessageType} {scope : Scope} {step : Step (code S)}
    {w w' : World S} (hbusy : (w.runner s.runner).activity ≠ .idle)
    (h : (s.resolve app calls type scope).run w = (.ok (some step), w')) :
    Lingers s.runner [.resolved s.runner step.id scope (w.runner s.runner).working
      (w.runner s.runner).actor w.state] w w' := by
  have hundisturbed := (composes_undisturbed s.runner).sequential.resolution app calls hperform
    s.model (w.runner s.runner).working (w.runner s.runner).actor type scope w
  rw [Session.resolve_run] at h
  generalize (UseCaseEngine.resolve (evalGuard app calls) s.model (w.runner s.runner).working
    (w.runner s.runner).actor type scope).run w = result at hundisturbed h
  obtain ⟨e | _ | found, v⟩ := result
  · cases h
  · cases h
  · cases h
    exact (hundisturbed.lingers hbusy).trans (lingers_resolved ..)

variable {name : String} {limit : Nat} {w : World S} (hready : Ready s.runner false w)
include hready

/-- An execution fails for a step too many only if an inbox does. -/
theorem passesOn_of_execute {step : Step (code S)} {m : Message}
    (h : ((s.execute app calls step m).run w).1 = .error (.infiniteRepetition name limit)) :
    PassesOn s.runner w ((s.execute app calls step m).run w).2 := by
  obtain ⟨-, events, hjournal, hexecuted⟩ :=
    execute_executed app s hperform false step m w hready
  rw [h] at hexecuted
  exact ⟨events, hjournal, hexecuted.delivered⟩

/-- A session fails for a step too many because an inbox does, or it does so after a step took the
message. -/
theorem passesOn_or_taken {m : Message} {otherwise : Option Message}
    {next : Option Message → Attempt S (Option Message)}
    (h : ((s.take app calls m otherwise next).run w).1 =
      .error (.infiniteRepetition name limit)) :
    PassesOn s.runner w ((s.take app calls m otherwise next).run w).2 ∨
      ∃ step message w₁ w₂, (s.resolve app calls m.type .normal).run w = (.ok (some step), w₁) ∧
        (s.execute app calls step m).run w₁ = (.ok (some message), w₂) ∧
        Ready s.runner false w₂ ∧ (∃ events, w₂.journal = events ++ w.journal) ∧
        (s.take app calls m otherwise next).run w = (next message).run w₂ := by
  obtain ⟨hready₁, old, hold, -⟩ := resolve_found app s hperform false m.type .normal w hready
  rcases hresolve : (s.resolve app calls m.type .normal).run w with ⟨e | _ | step, w₁⟩
  · unfold Session.take at h
    rw [Attempt.run_bind, hresolve] at h
    cases h
    exact absurd rfl (fails_of_resolve app calls s (congrArg Prod.fst hresolve)).ne
  · unfold Session.take at h
    rw [Attempt.run_bind, hresolve] at h
    cases h
  rw [hresolve] at hready₁ hold
  rw [take_of_resolve hresolve, Attempt.run_bind] at h ⊢
  have hpasses (h : ((s.execute app calls step m).run w₁).1 =
    .error (.infiniteRepetition name limit)) := passesOn_of_execute hperform hready₁ h
  obtain ⟨hready₂, new, hnew, -⟩ := execute_executed app s hperform false step m w₁ hready₁
  rcases hexecute : (s.execute app calls step m).run w₁ with ⟨e | _ | message, w₂⟩
  · rw [hexecute] at h hpasses
    cases h
    exact .inl ((hpasses rfl).prepend hold)
  · rw [hexecute] at h
    cases h
  · rw [hexecute] at hready₂ hnew
    refine .inr ⟨step, message, w₁, w₂, rfl, hexecute, hready₂, ⟨new ++ old, ?_⟩, rfl⟩
    rw [hnew, hold, List.append_assoc]

/-- **A session that goes on fails for a step too many** only once it has executed all that are
allowed and finds another one, or because an inbox failed like this. The induction is on the steps
that are left. -/
theorem rounds_of_continueWith (left : Nat) (pending : Option Message)
    (h : ((s.continueWith app calls left pending).run w).1 =
      .error (.infiniteRepetition name limit)) :
    PassesOn s.runner w ((s.continueWith app calls left pending).run w).2 ∨
      limit = s.limit ∧ ∃ last v step w', s.Rounds app calls left pending w last v ∧
        (s.resolve app calls .systemEvent .normal).run v = (.ok (some step), w') ∧
          step.name = name := by
  induction left generalizing pending w with
  | zero =>
    unfold Session.continueWith at h
    rw [Attempt.run_bind] at h
    rcases hresolve : (s.resolve app calls .systemEvent .normal).run w with ⟨e | _ | step, w₁⟩
    · rw [hresolve] at h
      cases h
      exact absurd rfl (fails_of_resolve app calls s (congrArg Prod.fst hresolve)).ne
    · rw [hresolve] at h
      cases h
    · rw [hresolve] at h
      cases h
      exact .inr ⟨rfl, pending, w, step, w₁, .none pending w, hresolve, rfl⟩
  | succ left ih =>
    rw [Session.continueWith_eq_take] at h ⊢
    rcases passesOn_or_taken hperform hready h with hpasses |
      ⟨step, message, w₁, w₂, hresolve, hexecute, hready₂, ⟨old, hold⟩, htake⟩
    · exact .inl hpasses
    rw [htake, Attempt.run_lift_bind] at h ⊢
    obtain ⟨hready₃, new, hnew, -⟩ := release_unhindered hperform hready₂ pending
    rw [hold, ← List.append_assoc] at hnew
    rcases ih hready₃ message h with hpasses | ⟨hlimit, last, v, step', w', hrounds, hfound, hname⟩
    · exact .inl (hpasses.prepend hnew)
    · exact .inr ⟨hlimit, last, v, step', w', .next hresolve hexecute hrounds, hfound, hname⟩

end Session

/-- A runner that is in a call stays in it, and nothing is struck from the journal. -/
def Proceeds (r : RunnerId S) (w w' : World S) : Prop :=
  Ready r false w → Ready r false w' ∧ Grows w w'

theorem composes_proceeds (r : RunnerId S) : Composes (Proceeds r) where
  refl w hready := ⟨hready, composes_grows.refl w⟩
  trans := by
    intro w₁ w₂ w₃ h₁₂ h₂₃ hready
    obtain ⟨hready, hgrows⟩ := h₁₂ hready
    obtain ⟨hready, hgrows'⟩ := h₂₃ hready
    exact ⟨hready, composes_grows.trans hgrows hgrows'⟩

theorem Effect.Tells.proceeds {r : RunnerId S} {α : Type} {p : Effect S α}
    {T : α → List (Event S) → Prop} (h : Effect.Tells r false p T) :
    Effect.Within (Proceeds r) p := by
  intro w hready
  obtain ⟨hready', events, hjournal, -⟩ := h w hready
  exact ⟨hready', events, hjournal.symm⟩

theorem parts_proceeds {app : Application S} {calls : Calls S} {s : Session S}
    (hperform : ∀ q, Effect.Within (Undisturbed s.runner) (perform app calls q)) :
    s.Parts app calls (Effect.Within (Proceeds s.runner)) where
  resolve type scope := (resolve_found app s hperform false type scope).proceeds
  offer step _ m := (offer_offered app s hperform false step m).proceeds
  publish m := (publish_published app s hperform false m).proceeds

/-! ## Calls -/

section Call

variable (app : Application S) (calls : Calls S) (r : RunnerId S)

/-- A call gets to go on with system steps: it has a session, something is pending, and this is the
world then. -/
inductive Call.GoesOn (w : World S) : Call S → Session S → Option Message → World S → Prop where
  /-- A step took the message. -/
  | reacted {m : Message} {name : S.ModelName} {s : Session S} {step : Step (code S)}
      {message : Option Message} {w₁ w₂ w₃ : World S} (hrunning : (w.runner r).running = true)
      (hmodel : (w.runner r).model = some name)
      (hopen : openSession app r name (w.entered r) = (s, w₁))
      (hresolve : (s.resolve app calls m.type .normal).run w₁ = (.ok (some step), w₂))
      (hexecute : (s.execute app calls step m).run w₂ = (.ok (some message), w₃)) :
      GoesOn w (.react m) s message w₃
  | started {name : S.ModelName} {s : Session S} {w₁ : World S}
      (hopen : openSession app r name (recordFromStart r ((w.entered r).started r name)).2 =
        (s, w₁)) :
      GoesOn w (.run name) s none w₁

/-- A call executes so many system steps after it gets to. -/
def Call.Completes (w : World S) (c : Call S) (k : Nat) (s : Session S) (last : Option Message)
    (w' : World S) : Prop :=
  ∃ pending v, c.GoesOn app calls r w s pending v ∧ s.Rounds app calls k pending v last w'

/-- What a call does about what is pending when it is done with system steps. -/
def Call.finish (s : Session S) (pending : Option Message) : Call S → Attempt S (Option Message)
  | .react _ => return pending
  | .run _ => do
    s.release app calls pending
    return none

variable {app calls r} {c : Call S} {s : Session S} {pending : Option Message} {w v : World S}

/-- A session is for the runner and a model, and allows as many system steps as the settings say. -/
theorem openSession_eq {name : S.ModelName} (h : openSession app r name w = (s, v)) :
    s.runner = r ∧ s.model = app.model name ∧
      s.hook = ((w.runner r).hook.map app.hook).getD Hook.callThrough ∧
      s.limit = (w.runner r).settings.maxContinuations.toNat ∧ v.journal = w.journal ∧
      v.runner r = { w.runner r with working := (w.runner r).cursor } := by
  unfold openSession at h
  rw [Effect.run_bind, Effect.run_bind] at h
  dsimp only [Effect.runner] at h
  rw [runner_modifyRunner_self] at h
  cases h
  refine ⟨rfl, rfl, rfl, rfl, rfl, ?_⟩
  rw [runner_modifyRunner_self]

theorem runner_recordFromStart (r : RunnerId S) (w : World S) :
    ∃ recording events, (recordFromStart r w).2.runner r = { w.runner r with recording } ∧
      (recordFromStart r w).2.journal = events ++ w.journal := by
  unfold recordFromStart
  rw [Effect.run_bind]
  dsimp only [Effect.runner]
  cases (w.runner r).settings.recordFromStart with
  | false => exact ⟨(w.runner r).recording, [], rfl, rfl⟩
  | true =>
    refine ⟨(w.runner r).recording.start, [.recording r true], ?_, rfl⟩
    change (Effect.modifyRunner r (fun x => { x with recording := x.recording.start }) w).2.runner
      r = _
    rw [runner_modifyRunner_self]

/-- A call that gets to go on with system steps does, and finishes with what is pending then. -/
theorem serve_of_goesOn (h : c.GoesOn app calls r w s pending v) :
    (serve app calls r c).run (w.entered r) =
      (s.continueWith app calls s.limit pending >>= fun last => c.finish app calls s last).run
        v := by
  cases h with
  | @reacted m name _ step _ w₁ w₂ _ hrunning hmodel hopen hresolve hexecute =>
    rw [serve_of_running hrunning hmodel hopen, Session.react_eq_take, take_of_resolve hresolve,
      Attempt.run_bind, hexecute]
    change _ = (s.continueWith app calls s.limit pending >>= pure).run v
    rw [bind_pure]
    rfl
  | @started name _ _ hopen =>
    change (runModel app calls r name).run (w.entered r) = _
    rw [runModel_eq, Attempt.run_lift_bind, hopen]
    dsimp only
    unfold Session.begin
    rw [Attempt.run_bind, Attempt.run_bind]
    generalize (s.continueWith app calls s.limit none).run v = result
    obtain ⟨e | _ | message, w'⟩ := result <;> rfl

/-- In the world a session was opened for the call, and the call did not do anything yet. -/
structure Session.Opened (app : Application S) (r : RunnerId S) (w : World S) (s : Session S)
    (v : World S) : Prop where
  runner : s.runner = r
  model : ∃ name, s.model = app.model name
  limit : s.limit = (w.runner r).settings.maxContinuations.toNat
  engaged : Engaged (v.runner r)
  grows : Grows (w.entered r) v

theorem opened_of_reaction {name : S.ModelName}
    (hopen : openSession app r name (w.entered r) = (s, v)) : s.Opened app r w v := by
  obtain ⟨hs, hmodel, -, hlimit, hopened, hsame⟩ := openSession_eq hopen
  rw [World.runner_entered] at hlimit hsame
  refine ⟨hs, ⟨name, hmodel⟩, hlimit, ⟨?_, ?_⟩, [], hopened.symm⟩
  · rw [hsame]
    exact nofun
  · rw [hsame]

theorem opened_of_run {name : S.ModelName}
    (hopen : openSession app r name (recordFromStart r ((w.entered r).started r name)).2 = (s, v)) :
    s.Opened app r w v := by
  obtain ⟨recording, events, hrunner, hjournal⟩ :=
    runner_recordFromStart r ((w.entered r).started r name)
  obtain ⟨hs, hmodel, -, hlimit, hopened, hsame⟩ := openSession_eq hopen
  rw [hrunner, World.runner_started, World.runner_entered] at hlimit hsame
  refine ⟨hs, ⟨name, hmodel⟩, hlimit, ⟨?_, ?_⟩, events ++ [.ran r name], ?_⟩
  · rw [hsame]
    exact nofun
  · rw [hsame]
  · rw [hopened, hjournal, List.append_assoc]
    rfl

/-- A session was opened before the call gets to go on, and its parts led from there. -/
theorem Call.GoesOn.opened (h : c.GoesOn app calls r w s pending v) :
    ∃ u, s.Opened app r w u ∧
      ∀ R, Composes R → s.Parts app calls (Effect.Within R) → R u v := by
  cases h with
  | started hopen => exact ⟨v, opened_of_run hopen, fun R hR _ => hR.refl v⟩
  | @reacted m name _ step _ w₁ w₂ _ hrunning hmodel hopen hresolve hexecute =>
    refine ⟨w₁, opened_of_reaction hopen, fun R hR hparts => ?_⟩
    have hstep := (eligible_of_resolve app calls s (congrArg Prod.fst hresolve)).1
    have hfound := hparts.resolve m.type .normal w₁
    have hexecuted := hparts.execute hR.sequential hstep m w₂
    rw [hresolve] at hfound
    rw [hexecute] at hexecuted
    exact hR.trans hfound hexecuted

/-- So it is after some rounds. -/
theorem Call.Completes.opened {k : Nat} {last : Option Message}
    (h : c.Completes app calls r w k s last v) :
    ∃ u, s.Opened app r w u ∧
      ∀ R, Composes R → s.Parts app calls (Effect.Within R) → R u v := by
  obtain ⟨pending, x, hgoesOn, hrounds⟩ := h
  obtain ⟨u, hopened, hwithin⟩ := hgoesOn.opened
  exact ⟨u, hopened, fun R hR hparts =>
    hR.trans (hwithin R hR hparts) (hrounds.within hR hparts)⟩

variable (hperform : ∀ q, Effect.Within (Undisturbed r) (perform app calls q))
include hperform

theorem Call.Completes.proceeds {k : Nat} {last : Option Message}
    (h : c.Completes app calls r w k s last v) : Ready r false v ∧ Grows (w.entered r) v := by
  obtain ⟨u, ⟨rfl, -, -, hengaged, hgrows⟩, hwithin⟩ := h.opened
  obtain ⟨hready, hgrows'⟩ :=
    hwithin _ (composes_proceeds s.runner) (parts_proceeds hperform) ⟨hengaged.busy, nofun⟩
  exact ⟨hready, composes_grows.trans hgrows hgrows'⟩

/-- **A call fails for a step too many** only once it has executed all that are allowed and finds
another one, or because an inbox failed like this. -/
theorem completes_of_serve {name : String} {n : Nat}
    (h : ((serve app calls r c).run (w.entered r)).1 = .error (.infiniteRepetition name n)) :
    PassesOn r (w.entered r) ((serve app calls r c).run (w.entered r)).2 ∨
      n = (w.runner r).settings.maxContinuations.toNat ∧
        ∃ s last v step w', c.Completes app calls r w n s last v ∧
          (s.resolve app calls .systemEvent .normal).run v = (.ok (some step), w') ∧
            step.name = name := by
  cases c with
  | react m =>
    change ((reactTo app calls r m).run (w.entered r)).1 = _ at h
    change PassesOn r _ ((reactTo app calls r m).run (w.entered r)).2 ∨ _
    rcases ((w.entered r).runner r).inactive_or with hinactive | ⟨hrunning, model, hmodel⟩
    · rw [reactTo_of_inactive hinactive] at h
      cases h
    rw [reactTo_of_running hrunning hmodel, Attempt.run_lift_bind] at h ⊢
    rw [World.runner_entered] at hrunning hmodel
    rcases hopen : openSession app r model (w.entered r) with ⟨s, w₁⟩
    rw [hopen] at h
    dsimp only at h ⊢
    rw [Session.react_eq_take] at h ⊢
    obtain ⟨rfl, -, hlimit, hengaged, old, hold⟩ := opened_of_reaction hopen
    -- The step that takes the message is no round; it may only pass on the error of an inbox.
    rcases passesOn_or_taken hperform ⟨hengaged.busy, nofun⟩ h with hpasses |
      ⟨step, message, w₂, w₃, hresolve, hexecute, hready₃, ⟨events, hevents⟩, htake⟩
    · exact .inl (hpasses.prepend hold.symm)
    rw [htake] at h ⊢
    rw [← hold, ← List.append_assoc] at hevents
    rcases rounds_of_continueWith hperform hready₃ s.limit message h with hpasses |
      ⟨rfl, last, v, step', w', hrounds, hfound, hname⟩
    · exact .inl (hpasses.prepend hevents)
    · exact .inr ⟨hlimit, s, last, v, step', w',
        ⟨message, w₃, .reacted hrunning hmodel hopen hresolve hexecute, hrounds⟩, hfound, hname⟩
  | run model =>
    change ((runModel app calls r model).run (w.entered r)).1 = _ at h
    change PassesOn r _ ((runModel app calls r model).run (w.entered r)).2 ∨ _
    rw [runModel_eq, Attempt.run_lift_bind] at h ⊢
    rcases hopen : openSession app r model (recordFromStart r ((w.entered r).started r model)).2
      with ⟨s, w₁⟩
    rw [hopen] at h
    obtain ⟨rfl, -, hlimit, hengaged, events, hevents⟩ := opened_of_run hopen
    have hcontinued (h : ((s.continueWith app calls s.limit none).run w₁).1 =
        .error (.infiniteRepetition name n)) :=
      rounds_of_continueWith hperform ⟨hengaged.busy, nofun⟩ s.limit none h
    dsimp only at h ⊢
    unfold Session.begin at h ⊢
    rw [Attempt.run_bind] at h ⊢
    generalize (s.continueWith app calls s.limit none).run w₁ = result at h hcontinued ⊢
    obtain ⟨e | _ | message, w'⟩ := result
    · cases h
      rcases hcontinued rfl with hpasses | ⟨rfl, last, v, step', w', hrounds, hfound, hname⟩
      · exact .inl (hpasses.prepend hevents.symm)
      · exact .inr ⟨hlimit, s, last, v, step', w', ⟨none, w₁, .started hopen, hrounds⟩, hfound,
          hname⟩
    · cases h
    · cases h

end Call

/-! ## The ceiling -/

section Ceiling

variable (app : Application S) (calls : Calls S) (r : RunnerId S)

/-- The last thing that the call did was to give a message to an actor. So if it failed then, it
passed on the error of the actor's inbox. -/
def PassedOn (events : List (Event S)) : Prop :=
  ∃ before actor m, own r events = before ++ [.delivered r actor m, .left r]

/-- What a limit of system steps means for a call, which came to this and noted these events. -/
structure Ceiling (c : Call S) (w : World S) (limit : Nat) (out : CallResult × World S)
    (events : List (Event S)) : Prop where
  /-- At most one step takes the message, and then at most so many take a system event; one that
  handles failures may react after each. -/
  shape : c.Shape app (w.runner r) limit (reactions r events)
  triggers : triggers r events = (reactions r events).map fun x => (x.1, x.2.1)
  triggers_le : (UseCaseEngine.triggers r events).length ≤ 2 * (limit + 1)
  /-- The call ends: it does not do more than this, but to run user code in between. -/
  noted_le : (own r events).length ≤ 13 * (limit + 1) + 2
  /-- It fails for a step too many just if it executed all that are allowed and finds another one,
  unless it passes on the error of an inbox. -/
  exceeded_iff : ∀ name n,
    (out.1 = .error (.infiniteRepetition name n) ∧ ¬ PassedOn r events) ↔
      n = limit ∧ ∃ s last v step w', c.Completes app calls r w limit s last v ∧
        (s.resolve app calls .systemEvent .normal).run v = (.ok (some step), w') ∧
          step.name = name
  /-- The step too many is named. The call did nothing more than to find it: it is not triggered
  and not recorded, and the cursor is where it was. -/
  exceeded : ∀ s last v step w', c.Completes app calls r w limit s last v →
    (s.resolve app calls .systemEvent .normal).run v = (.ok (some step), w') →
      out = (.error (.infiniteRepetition step.name limit), w'.left r) ∧
        Lingers r [.resolved r step.id .normal (v.runner r).working (v.runner r).actor v.state,
          .left r] v (w'.left r)
  /-- It does not fail if no step is found, also if it executed all that are allowed. -/
  settled : ∀ k s last v w', k ≤ limit → c.Completes app calls r w k s last v →
    (s.resolve app calls .systemEvent .normal).run v = (.ok none, w') →
      ∃ returned, out.1 = .ok returned

variable {app calls r} {c : Call S} {w : World S}
  (hperform : ∀ q, Effect.Within (Undisturbed r) (perform app calls q))
include hperform

/-- A call that finds a step too many fails, and leaves the step alone. -/
theorem occupy_of_exceeded {s : Session S} {last : Option Message} {v w' : World S}
    {step : Step (code S)}
    (h : c.Completes app calls r w (w.runner r).settings.maxContinuations.toNat s last v)
    (hresolve : (s.resolve app calls .systemEvent .normal).run v = (.ok (some step), w')) :
    occupy app calls r c w = (.error (.infiniteRepetition step.name
        (w.runner r).settings.maxContinuations.toNat), w'.left r) ∧
      Lingers r [.resolved r step.id .normal (v.runner r).working (v.runner r).actor v.state,
        .left r] v (w'.left r) ∧ Grows (w.entered r) v := by
  obtain ⟨hready, hgrows⟩ := h.proceeds hperform
  obtain ⟨pending, u, hgoesOn, hrounds⟩ := h
  obtain ⟨-, ⟨rfl, -, hlimit, -⟩, -⟩ := hgoesOn.opened
  rw [← hlimit] at hrounds ⊢
  refine ⟨?_, ?_, hgrows⟩
  · rw [occupy_eq, serve_of_goesOn hgoesOn, Attempt.run_bind,
      continueWith_of_exhausted hrounds hresolve]
    rfl
  · exact (lingers_of_resolve hperform hready.busy hresolve).trans (lingers_left s.runner w')

/-- A call that finds no step any more does not fail. -/
theorem occupy_of_settled {k : Nat} {s : Session S} {last : Option Message} {v w' : World S}
    (hk : k ≤ (w.runner r).settings.maxContinuations.toNat)
    (h : c.Completes app calls r w k s last v)
    (hresolve : (s.resolve app calls .systemEvent .normal).run v = (.ok none, w')) :
    ∃ returned, (occupy app calls r c w).1 = .ok returned := by
  obtain ⟨pending, u, hgoesOn, hrounds⟩ := h
  obtain ⟨-, ⟨rfl, -, hlimit, -⟩, -⟩ := hgoesOn.opened
  obtain ⟨left, hleft⟩ := Nat.exists_eq_add_of_le (hlimit ▸ hk)
  rw [occupy_eq, serve_of_goesOn hgoesOn, Attempt.run_bind, hleft,
    continueWith_of_settled hrounds hresolve]
  cases c with
  | react m => exact ⟨_, rfl⟩
  | run name => exact ⟨_, rfl⟩

/-- **A call fails for a step too many just if it finds one.** -/
theorem exceeded_iff_of_occupy {events : List (Event S)}
    (hjournal : (occupy app calls r c w).2.journal = events ++ w.journal) (name : String)
    (n : Nat) :
    ((occupy app calls r c w).1 = .error (.infiniteRepetition name n) ∧ ¬ PassedOn r events) ↔
      n = (w.runner r).settings.maxContinuations.toNat ∧
        ∃ s last v step w', c.Completes app calls r w
            (w.runner r).settings.maxContinuations.toNat s last v ∧
          (s.resolve app calls .systemEvent .normal).run v = (.ok (some step), w') ∧
            step.name = name := by
  constructor
  · rintro ⟨hresult, hnot⟩
    rw [occupy_eq] at hresult hjournal
    rcases completes_of_serve hperform hresult with ⟨since, hsince, before, actor, m, hbefore⟩ | h
    · refine absurd ⟨.entered r :: before, actor, m, ?_⟩ hnot
      have hall : events = [.left r] ++ (since ++ [.entered r]) := by
        refine List.append_cancel_right (hjournal.symm.trans ?_)
        change Event.left r :: ((serve app calls r c).run (w.entered r)).2.journal = _
        rw [hsince]
        simp [World.entered, World.note, World.setRunner]
      rw [hall, own_append, own_append, own_singleton rfl, own_singleton rfl, hbefore]
      simp
    · obtain ⟨rfl, h⟩ := h
      exact ⟨rfl, h⟩
  · rintro ⟨rfl, s, last, v, step, w', hcompletes, hresolve, rfl⟩
    obtain ⟨hout, hleft, hgrows⟩ := occupy_of_exceeded hperform hcompletes hresolve
    refine ⟨congrArg Prod.fst hout, ?_⟩
    rintro ⟨before, actor, m, hpassed⟩
    obtain ⟨since, hsince, hnoted, -⟩ := hleft.events
    obtain ⟨earlier, hearlier⟩ := hgrows
    rw [hout, hsince, ← hearlier] at hjournal
    have hall : events = since ++ (earlier ++ [.entered r]) := by
      refine List.append_cancel_right (hjournal.symm.trans ?_)
      simp [World.entered, World.note, World.setRunner]
    rw [hall, own_append, hnoted] at hpassed
    cases (List.append_inj' hpassed rfl).2

end Ceiling

/-- **How long a call goes on**, for every application and every limit of system steps, 0 included.
A call on a runner that is in one is refused. Any other one lets at most one step react to its
message and then at most as many system steps as the limit says, and each of them may be followed by
one step that handles failures, if it failed; so it comes to an end. It fails for a step too many
just if it executed as many as are allowed and finds another one, unless it passes on the error of
an inbox. That step is named; it is not triggered and not recorded, and the cursor stays where the
last round left it. A call that executed as many as are allowed and finds none does not fail. -/
theorem ceiling_of_call (app : Application S) (depth : Nat) (r : RunnerId S) (c : Call S)
    (w : World S) :
    ((w.runner r).activity ≠ .idle →
      callWithin app (depth + 1) r c w =
        (.error (.nestedCall (w.runner r).activity.label),
          w.note (.refused r (w.runner r).activity.label))) ∧
    ((w.runner r).activity = .idle →
      ∃ events, (callWithin app (depth + 1) r c w).2.journal = events ++ w.journal ∧
        Ceiling app (callWithin app depth) r c w (w.runner r).settings.maxContinuations.toNat
          (callWithin app (depth + 1) r c w) events) := by
  refine ⟨fun hbusy => callWithin_of_busy app (depth + 1) r c w hbusy, fun hidle => ?_⟩
  have hperform := perform_undisturbed app r depth
  obtain ⟨events, trace, hjournal, hown, hcourse⟩ := callWithin_course app depth r c hidle
  obtain ⟨reacted, hnoted, hshape⟩ := hcourse.noted
  have hreactions : reactions r events = reacted := by
    rw [← hnoted.reactions]
    unfold reactions
    rw [readOff_own (fun _ => foreign_reaction?), hown, filterMap_entered rfl rfl]
  have htriggers : triggers r events = reacted.map fun x => (x.1, x.2.1) := by
    rw [← hnoted.triggers, triggers_own, hown, filterMap_entered rfl rfl]
  rw [callWithin_of_idle app depth r c hidle] at hjournal ⊢
  refine ⟨events, hjournal, ?_⟩
  exact {
    shape := hreactions ▸ hshape
    triggers := hreactions ▸ htriggers
    triggers_le := by
      rw [htriggers, List.length_map]
      exact hshape.length_le
    noted_le := by
      have := hnoted.length
      rw [hown]
      simp only [List.length_cons, List.length_append, List.length_nil]
      omega
    exceeded_iff := exceeded_iff_of_occupy hperform hjournal
    exceeded := fun s last v step w' hcompletes hresolve =>
      have h := occupy_of_exceeded hperform hcompletes hresolve
      ⟨h.1, h.2.1⟩
    settled := fun k s last v w' hk hcompletes hresolve =>
      occupy_of_settled hperform hk hcompletes hresolve }

namespace Shop

/-- The world after something was ordered in a hurry. -/
def hurriedOrder : World signature :=
  [Request.call clerk (.run ()), .call clerk (.react order)].foldl
    (fun w q => (perform application (call application) q w).2) hurried

/-- What the call noted in which that order is paid for with cash. -/
def hurriedPayment : List (Event signature) :=
  (call application clerk (.react (pay "cash")) hurriedOrder).2.journal.take
    ((call application clerk (.react (pay "cash")) hurriedOrder).2.journal.length -
      hurriedOrder.journal.length)

theorem not_passedOn_hurriedPayment : ¬ PassedOn clerk hurriedPayment := by
  rintro ⟨before, actor, m, hown⟩
  have hnone : (own clerk hurriedPayment).dropLast.getLast?.bind (Event.delivery? clerk) =
      none := by decide +kernel
  rw [hown, List.append_cons, List.dropLast_concat] at hnone
  simp [Event.delivery?] at hnone

end Shop

/-- In a hurry, the order is paid for and packed, but nobody is thanked. -/
theorem ceiling_in_shop :
    (call Shop.application Shop.clerk (.react (Shop.pay "cash")) Shop.hurriedOrder).1 =
        .error (.infiniteRepetition "Thank" 1) ∧
      (triggers Shop.clerk Shop.hurriedPayment).length = 2 ∧
      ∃ s last v step w', (Call.react (Shop.pay "cash")).Completes Shop.application
          (callWithin Shop.application 0) Shop.clerk Shop.hurriedOrder 1 s last v ∧
        (s.resolve Shop.application (callWithin Shop.application 0) .systemEvent .normal).run v =
          (.ok (some step), w') ∧ step.name = "Thank" ∧
        ((w'.left Shop.clerk).runner Shop.clerk).cursor = (v.runner Shop.clerk).cursor := by
  have hresult : (call Shop.application Shop.clerk (.react (Shop.pay "cash"))
      Shop.hurriedOrder).1 = .error (.infiniteRepetition "Thank" 1) := by decide +kernel
  refine ⟨hresult, by decide +kernel, ?_⟩
  obtain ⟨events, hjournal, hceiling⟩ := (ceiling_of_call Shop.application 0 Shop.clerk
    (.react (Shop.pay "cash")) Shop.hurriedOrder).2 (by decide +kernel)
  have hlimit : (Shop.hurriedOrder.runner Shop.clerk).settings.maxContinuations.toNat = 1 := by
    decide +kernel
  have hevents : events = Shop.hurriedPayment := by
    unfold Shop.hurriedPayment call
    rw [hjournal, List.length_append, Nat.add_sub_cancel, List.take_left]
  subst hevents
  rw [hlimit] at hceiling
  obtain ⟨-, s, last, v, step, w', hcompletes, hresolve, hname⟩ :=
    (hceiling.exceeded_iff "Thank" 1).mp ⟨hresult, Shop.not_passedOn_hurriedPayment⟩
  exact ⟨s, last, v, step, w', hcompletes, hresolve, hname,
    (hceiling.exceeded s last v step w' hcompletes hresolve).2.cursor⟩

end UseCaseEngine
