import UseCaseEngine.Proofs.Course
import UseCaseEngine.Proofs.Recovery

/-!
# What becomes of what steps publish

What a step publishes is delivered (`deliver`), if it is meant for an actor with an inbox; else it
is left over. A session holds back what is left over of one step until another one was executed
(`continue_automatically`): then it goes to the publisher (`publish`). What is left over of the
last step is returned, or goes to the publisher if the call starts a run.

Out of scope: what inboxes and publishers do with it, and replies of inboxes, which are dropped.

* `Continued.routed`: what becomes of it while system steps are executed, one after another.
* **`published_of_ok`**: a call that does not fail loses nothing of what is left over and doubles
  nothing, and it keeps the order.
* **`published_of_error`**: a call that fails loses what is left over of the last step that was
  executed before it broke off, and nothing that earlier steps left over.
* `receipt_lost`: in the shop, a receipt gets lost if the warehouse is closed.
-/

namespace UseCaseEngine

variable {S : Signature}

/-! ## Publications and deliveries -/

namespace Event

variable (r : RunnerId S)

/-- The message that a step of the runner published, given to the publisher. -/
def publication? : Event S → Option Message
  | .published r' m => if r' = r then some m else none
  | _ => none

/-- The message that a step of the runner published, delivered to an actor. -/
def delivery? : Event S → Option (String × Message)
  | .delivered r' actor m => if r' = r then some (actor, m) else none
  | _ => none

end Event

/-- What was given to a runner's publisher. -/
def publications (r : RunnerId S) : List (Event S) → List Message := readOff (Event.publication? r)

/-- What a runner's steps published and was delivered. -/
def deliveries (r : RunnerId S) : List (Event S) → List (String × Message) :=
  readOff (Event.delivery? r)

section Own

variable (r : RunnerId S) (events : List (Event S))

theorem turns_own : turns r events = (own r events).filterMap (Event.turn? r) :=
  readOff_own (fun _ => foreign_turn?) events

theorem publications_own :
    publications r events = (own r events).filterMap (Event.publication? r) :=
  readOff_own (fun e he => by cases e <;> simp_all [Event.session?, Event.publication?]) events

theorem deliveries_own :
    deliveries r events = (own r events).filterMap (Event.delivery? r) :=
  readOff_own (fun e he => by cases e <;> simp_all [Event.session?, Event.delivery?]) events

end Own

/-! ## What a turn leaves over -/

namespace Turn

/-- What the step published. -/
def publishes (t : Turn) : Option Message :=
  match t.output with
  | .ok message => message
  | .error _ => none

variable (model : Model (code S)) (t : Turn)

/-- The actor with an inbox that what the step publishes is meant for. -/
def inbox? : Option (String × (code S).Inbox) := (model.step? t.step).bind model.inboxOf

/-- What the step published and is not meant for an inbox. -/
def leftOver : Option Message := if (t.inbox? model).isSome then none else t.publishes

/-- What the step published and is meant for an inbox, with the actor that has it. -/
def toInbox : Option (String × Message) :=
  (t.inbox? model).bind fun (actor, _) => t.publishes.map fun m => (actor, m)

/-- What is not meant for an inbox, or not published at all, is left over. -/
theorem leftOver_of_not_inbox (h : t.publishes = none ∨ t.inbox? model = none) :
    t.leftOver model = t.publishes ∧ t.toInbox model = none := by
  unfold leftOver toInbox
  rcases h with h | h
  · rw [h]
    cases t.inbox? model <;> simp
  · simp [h]

/-- What is meant for an inbox is not left over. -/
theorem toInbox_of_inbox {actor : String} {inbox : (code S).Inbox} {m : Message}
    (h : t.inbox? model = some (actor, inbox)) (hm : t.publishes = some m) :
    t.leftOver model = none ∧ t.toInbox model = some (actor, m) := by
  unfold leftOver toInbox
  simp [h, hm]

/-- The step was not executed successfully, or what it published is meant for an inbox: it failed,
or what its reaction refers to does not exist, or there is an inbox that may have refused. -/
def Unfinished : Prop :=
  (∃ failure, t.output = .error failure) ∨
    ∃ step, model.step? t.step = some step ∧
      ((∃ e, model.refers step = .error e) ∨ (model.inboxOf step).isSome = true)

end Turn

section Routed

variable (model : Model (code S)) (r : RunnerId S)

/-- What is pending after several turns, if something was before: what is left over of the last
one. -/
def lastLeft (pending : Option Message) (ts : List Turn) : Option Message :=
  ts.foldl (fun _ t => t.leftOver model) pending

theorem lastLeft_append (pending : Option Message) (ts us : List Turn) :
    lastLeft model pending (ts ++ us) = lastLeft model (lastLeft model pending ts) us :=
  List.foldl_append

theorem lastLeft_none (ts : List Turn) :
    lastLeft model none ts = ts.getLast?.bind (Turn.leftOver model) := by
  rcases List.eq_nil_or_concat ts with rfl | ⟨ts, t, rfl⟩
  · rfl
  · rw [List.concat_eq_append, lastLeft_append, List.getLast?_concat]
    rfl

/-- Turns that were taken by executing a step: what is left over of them, and what was delivered. -/
structure Hands (message : Option Message) (events : List (Event S)) : Prop where
  deliveries : events.filterMap (Event.delivery? r) =
    (events.filterMap (Event.turn? r)).filterMap (Turn.toInbox model)
  leftOver : (events.filterMap (Event.turn? r)).filterMap (Turn.leftOver model) = message.toList
  last : ∀ pending, lastLeft model pending (events.filterMap (Event.turn? r)) = message

variable {model r} in
/-- A step takes one turn. -/
theorem hands_of_turn {t : Turn} {events : List (Event S)}
    (hturn : events.filterMap (Event.turn? r) = [t])
    (hdelivery : events.filterMap (Event.delivery? r) = (t.toInbox model).toList) :
    Hands model r (t.leftOver model) events := by
  refine ⟨?_, ?_, fun pending => ?_⟩
  · rw [hturn, hdelivery]
    cases h : t.toInbox model <;> simp [h]
  · rw [hturn]
    cases h : t.leftOver model <;> simp [h]
  · rw [hturn]
    rfl

variable {model r} in
/-- Events that say the same of turns and deliveries hand on the same. -/
theorem Hands.of_eq {message : Option Message} {events events' : List (Event S)}
    (hturns : events'.filterMap (Event.turn? r) = events.filterMap (Event.turn? r))
    (hdeliveries : events'.filterMap (Event.delivery? r) = events.filterMap (Event.delivery? r))
    (h : Hands model r message events) : Hands model r message events' := by
  refine ⟨?_, ?_, fun pending => ?_⟩
  · rw [hturns, hdeliveries, h.deliveries]
  · rw [hturns, h.leftOver]
  · rw [hturns, h.last]

/-- At most two turns were taken, and none of them was finished. -/
def Breaks (ts : List Turn) : Prop := ts.length ≤ 2 ∧ ∀ t ∈ ts, t.Unfinished model

variable {model r}

/-- Looking for a step does nothing about what was published. -/
theorem Found.quiet {type : MessageType} {scope : Scope}
    {result : Except RunnerError (Option (Step (code S)))} {events : List (Event S)}
    (h : Found model r type scope result events) :
    events.filterMap (Event.turn? r) = [] ∧ events.filterMap (Event.publication? r) = [] ∧
      events.filterMap (Event.delivery? r) = [] := by
  cases h <;> simp [Event.turn?, Event.publication?, Event.delivery?]

theorem Found.step?_self {type : MessageType} {scope : Scope} (hplaced : model.Placed)
    {step : Step (code S)} {events : List (Event S)}
    (h : Found model r type scope (.ok (.some step)) events) :
    model.step? step.id = .some step := by
  cases h with
  | some h => exact hplaced.step?_self h.1

section Step

variable {step : Step (code S)} (hstep : model.step? step.id = some step) {m : Message}
include hstep

/-- **A step that is offered** takes at most one turn, and what it published is delivered, left over
or lost. -/
theorem Offered.routed {result : Except RunnerError Reacted} {events : List (Event S)}
    (h : Offered model r step m result events) :
    events.filterMap (Event.publication? r) = [] ∧
      match result with
      | .ok .suppressed => events.filterMap (Event.turn? r) = [] ∧
          events.filterMap (Event.delivery? r) = []
      | .ok (.failed failure) => ∃ t : Turn, events.filterMap (Event.turn? r) = [t] ∧
          t.output = .error failure ∧ events.filterMap (Event.delivery? r) = []
      | .ok (.published message) => Hands model r message events
      | .error _ => ∃ t : Turn, events.filterMap (Event.turn? r) = [t] ∧ t.Unfinished model := by
  have hinbox? (output : Output) (answers : List Bool) :
      Turn.inbox? model ⟨step.id, m, output, answers⟩ = model.inboxOf step := by
    rw [Turn.inbox?, hstep]
    rfl
  cases h with
  | suppressed => simp [List.filterMap_cons, Event.publication?, Event.turn?, Event.delivery?]
  | reacted raw state h =>
    -- A failure and an unknown name end the step before anything is delivered.
    cases h with
    | failed failure =>
      refine ⟨by simp [List.filterMap_cons, Event.publication?],
        ⟨step.id, m, .error failure, []⟩, ?_, rfl, ?_⟩
      · simp [List.filterMap_cons, Event.turn?]
      · simp [List.filterMap_cons, Event.delivery?]
    | dangling hrefers message answers =>
      refine ⟨by simp [List.filterMap_cons, Event.publication?],
        ⟨step.id, m, .ok message, answers⟩, ?_, .inr ⟨step, hstep, .inl ⟨_, hrefers⟩⟩⟩
      simp [List.filterMap_cons, Event.turn?]
    | @done hrefers message hinbox answers =>
      obtain ⟨hleft, hto⟩ := Turn.leftOver_of_not_inbox model
        ⟨step.id, m, .ok message, answers⟩ (hinbox.imp id fun h => by rw [hinbox?, h])
      refine ⟨by simp [List.filterMap_cons, Event.publication?], ?_⟩
      change Hands model r (Turn.publishes ⟨step.id, m, .ok message, answers⟩) _
      rw [← hleft]
      refine hands_of_turn ?_ ?_
      · simp [List.filterMap_cons, Event.turn?]
      · rw [hto]
        simp [List.filterMap_cons, Event.delivery?]
    | @delivered hrefers actor inbox hinbox message answers reply =>
      refine ⟨by simp [List.filterMap_cons, Event.publication?], ?_⟩
      cases reply with
      | error e =>
        refine ⟨⟨step.id, m, .ok (some message), answers⟩, ?_,
          .inr ⟨step, hstep, .inr (by rw [hinbox]; rfl)⟩⟩
        simp [List.filterMap_cons, Event.turn?]
      | ok reply =>
        obtain ⟨hleft, hto⟩ := Turn.toInbox_of_inbox model
          ⟨step.id, m, .ok (some message), answers⟩ ((hinbox? _ _).trans hinbox) rfl
        change Hands model r none _
        rw [← hleft]
        refine hands_of_turn ?_ ?_
        · simp [List.filterMap_cons, Event.turn?]
        · rw [hto]
          simp [List.filterMap_cons, Event.delivery?]

end Step

/-- A step that failed leaves nothing over. -/
theorem Hands.after_failed {t : Turn} {failure : Failure} {message : Option Message}
    {before events : List (Event S)} (hturn : before.filterMap (Event.turn? r) = [t])
    (houtput : t.output = .error failure) (hdelivery : before.filterMap (Event.delivery? r) = [])
    (h : Hands model r message events) : Hands model r message (before ++ events) := by
  have hpublishes : t.publishes = none := by
    rw [Turn.publishes, houtput]
  obtain ⟨hleft, hto⟩ := Turn.leftOver_of_not_inbox model t (.inl hpublishes)
  refine ⟨?_, ?_, fun pending => ?_⟩
  · rw [List.filterMap_append, List.filterMap_append, hturn, hdelivery, h.deliveries]
    simp [hto]
  · rw [List.filterMap_append, hturn, List.filterMap_append, h.leftOver]
    simp [hleft, hpublishes]
  · rw [List.filterMap_append, hturn, lastLeft_append]
    exact h.last _

section Placed

variable (hplaced : model.Placed)
include hplaced

/-- **The step that handles a failure** takes at most one turn. -/
theorem Handled.routed {failed : Step (code S)} {failure : Failure}
    {result : Except RunnerError (Option Message)} {events : List (Event S)}
    (h : Handled model r failed failure result events) :
    events.filterMap (Event.publication? r) = [] ∧
      match result with
      | .ok message => Hands model r message events
      | .error _ => (events.filterMap (Event.turn? r)).length ≤ 1 ∧
          ∀ t ∈ events.filterMap (Event.turn? r), t.Unfinished model := by
  cases h with
  | unresolved h =>
    obtain ⟨hturns, hpublications, -⟩ := h.quiet
    exact ⟨hpublications, by simp [hturns]⟩
  | uncaught h =>
    obtain ⟨hturns, hpublications, -⟩ := h.quiet
    exact ⟨hpublications, by simp [hturns]⟩
  | suppressed hfound hoffered =>
    obtain ⟨hturns, hpublications, -⟩ := hfound.quiet
    obtain ⟨hnone, hnoTurn, -⟩ := hoffered.routed (hfound.step?_self hplaced)
    exact ⟨by simp [hpublications, hnone], by simp [hturns, hnoTurn]⟩
  | broken hfound hoffered =>
    obtain ⟨hturns, hpublications, -⟩ := hfound.quiet
    obtain ⟨hnone, t, hturn, hunfinished⟩ := hoffered.routed (hfound.step?_self hplaced)
    exact ⟨by simp [hpublications, hnone], by simp [hturns, hturn, hunfinished]⟩
  | failed hfound hoffered =>
    obtain ⟨hturns, hpublications, -⟩ := hfound.quiet
    obtain ⟨hnone, t, hturn, houtput, -⟩ := hoffered.routed (hfound.step?_self hplaced)
    have hunfinished : t.Unfinished model := .inl ⟨_, houtput⟩
    exact ⟨by simp [hpublications, hnone], by simp [hturns, hturn, hunfinished]⟩
  | handled hfound hoffered =>
    obtain ⟨hturns, hpublications, hdeliveries⟩ := hfound.quiet
    obtain ⟨hnone, hhands⟩ := hoffered.routed (hfound.step?_self hplaced)
    exact ⟨by simp [hpublications, hnone], hhands.of_eq (by simp [hturns]) (by simp [hdeliveries])⟩

/-- **A step that is executed**, its failure handled if it fails, hands on what was published last,
or it breaks off, or it is suppressed. -/
theorem Executed.routed {step : Step (code S)} (hstep : model.step? step.id = some step)
    {m : Message} {result : Except RunnerError (Option (Option Message))}
    {events : List (Event S)} (h : Executed model r step m result events) :
    events.filterMap (Event.publication? r) = [] ∧
      match result with
      | .ok none => events.filterMap (Event.turn? r) = [] ∧
          events.filterMap (Event.delivery? r) = []
      | .ok (some message) => Hands model r message events
      | .error _ => Breaks model (events.filterMap (Event.turn? r)) := by
  cases h with
  | broken h =>
    obtain ⟨hnone, t, hturn, hunfinished⟩ := h.routed hstep
    exact ⟨hnone, by simp [Breaks, hturn, hunfinished]⟩
  | suppressed h => exact h.routed hstep
  | published h => exact h.routed hstep
  | uncaught hhandler h =>
    obtain ⟨hnone, t, hturn, houtput, -⟩ := h.routed hstep
    have hunfinished : t.Unfinished model := .inl ⟨_, houtput⟩
    exact ⟨hnone, by simp [Breaks, hturn, hunfinished]⟩
  | @failed failure result offered events hhandler hoffered h =>
    obtain ⟨hnone, t, hturn, houtput, hdelivery⟩ := hoffered.routed hstep
    obtain ⟨hnone', hhandled⟩ := h.routed hplaced
    refine ⟨by simp [hnone, hnone'], ?_⟩
    cases result with
    | ok message => exact hhandled.after_failed hturn houtput hdelivery
    | error e =>
      have hunfinished : t.Unfinished model := .inl ⟨_, houtput⟩
      obtain ⟨hlength, hall⟩ := hhandled
      rw [List.filterMap_append, hturn]
      refine ⟨?_, ?_⟩
      · rw [List.length_append, List.length_singleton]
        omega
      · intro u hu
        rcases List.mem_append.mp hu with hu | hu
        · rw [List.mem_singleton.mp hu]
          exact hunfinished
        · exact hall u hu

end Placed

/-! ## Whole calls -/

/-- The publisher was given what was left over, and what is pending at last comes to the caller. If
the call failed, some steps were executed before it broke off, and what is pending then is lost. -/
def Balanced (model : Model (code S)) (r : RunnerId S) (pending : Option Message)
    (events : List (Event S)) : CallResult → Prop
  | .ok returned =>
    events.filterMap (Event.publication? r) ++ returned.toList = pending.toList ++
        (events.filterMap (Event.turn? r)).filterMap (Turn.leftOver model) ∧
      events.filterMap (Event.delivery? r) =
        (events.filterMap (Event.turn? r)).filterMap (Turn.toInbox model) ∧
      lastLeft model pending (events.filterMap (Event.turn? r)) = returned
  | .error _ => ∃ done failing, events.filterMap (Event.turn? r) = done ++ failing ∧
      Breaks model failing ∧
        events.filterMap (Event.publication? r) ++ (lastLeft model pending done).toList =
          pending.toList ++ done.filterMap (Turn.leftOver model)

theorem Published.quiet {pending : Option Message} {events : List (Event S)}
    (h : Published r true pending events) :
    events.filterMap (Event.publication? r) = pending.toList ∧
      events.filterMap (Event.turn? r) = [] ∧ events.filterMap (Event.delivery? r) = [] := by
  cases h with
  | none => simp
  | dropped h => cases h
  | published m => simp [List.filterMap_cons, Event.publication?, Event.turn?, Event.delivery?]

/-- Before any step takes a turn, an error leaves what is pending behind. -/
theorem balanced_error_of_quiet {pending : Option Message} {e : RunnerError}
    {events : List (Event S)} (hpublications : events.filterMap (Event.publication? r) = [])
    (hbreaks : Breaks model (events.filterMap (Event.turn? r))) :
    Balanced model r pending events (.error e) :=
  ⟨[], _, rfl, hbreaks, by rw [hpublications]; simp [lastLeft]⟩

/-- Without a turn, what is pending comes to the caller. -/
theorem balanced_ok_of_quiet {pending : Option Message} {events : List (Event S)}
    (hturns : events.filterMap (Event.turn? r) = [])
    (hpublications : events.filterMap (Event.publication? r) = [])
    (hdeliveries : events.filterMap (Event.delivery? r) = []) :
    Balanced model r pending events (.ok pending) := by
  refine ⟨?_, ?_, ?_⟩
  · rw [hturns, hpublications]
    simp
  · rw [hturns, hdeliveries]
    rfl
  · rw [hturns]
    rfl

/-- Once a step was executed, what was pending before goes to the publisher. -/
theorem Balanced.prepend {pending message : Option Message} {before events : List (Event S)}
    {result : CallResult} (hhands : Hands model r message before)
    (hpublications : before.filterMap (Event.publication? r) = pending.toList)
    (h : Balanced model r message events result) :
    Balanced model r pending (before ++ events) result := by
  cases result with
  | ok returned =>
    obtain ⟨hbalance, hdeliveries, hlast⟩ := h
    refine ⟨?_, ?_, ?_⟩
    · rw [List.filterMap_append, hpublications, List.append_assoc, hbalance, ← hhands.leftOver,
        List.filterMap_append, List.filterMap_append]
    · rw [List.filterMap_append, hhands.deliveries, hdeliveries, List.filterMap_append,
        List.filterMap_append]
    · rw [List.filterMap_append, lastLeft_append, hhands.last, hlast]
  | error e =>
    obtain ⟨done, failing, hturns, hbreaks, hbalance⟩ := h
    refine ⟨before.filterMap (Event.turn? r) ++ done, failing, ?_, hbreaks, ?_⟩
    · rw [List.filterMap_append, hturns, List.append_assoc]
    · rw [List.filterMap_append, hpublications, lastLeft_append, hhands.last, List.append_assoc,
        hbalance, ← hhands.leftOver, List.filterMap_append]

theorem Found.balanced_error {type : MessageType} {scope : Scope}
    {result : Except RunnerError (Option (Step (code S)))} {events : List (Event S)}
    (h : Found model r type scope result events) (pending : Option Message) (e : RunnerError) :
    Balanced model r pending events (.error e) := by
  obtain ⟨hturns, hpublications, -⟩ := h.quiet
  exact balanced_error_of_quiet hpublications (by simp [Breaks, hturns])

theorem Found.balanced_ok {type : MessageType} {scope : Scope}
    {result : Except RunnerError (Option (Step (code S)))} {events : List (Event S)}
    (h : Found model r type scope result events) (pending : Option Message) :
    Balanced model r pending events (.ok pending) := by
  obtain ⟨hturns, hpublications, hdeliveries⟩ := h.quiet
  exact balanced_ok_of_quiet hturns hpublications hdeliveries

variable (hplaced : model.Placed) {limit : Nat}
include hplaced

section Executed

variable {type : MessageType} {scope : Scope} {step : Step (code S)} {m : Message}
  {found executed : List (Event S)} (hfound : Found model r type scope (.ok (some step)) found)
include hfound

/-- A step that breaks off leaves what is pending behind. -/
theorem balanced_of_broken {e : RunnerError} (h : Executed model r step m (.error e) executed)
    (pending : Option Message) : Balanced model r pending (found ++ executed) (.error e) := by
  obtain ⟨hturns, hpublications, -⟩ := hfound.quiet
  obtain ⟨hnone, hbreaks⟩ := h.routed hplaced (hfound.step?_self hplaced)
  exact balanced_error_of_quiet (by simp [hpublications, hnone]) (by simpa [hturns] using hbreaks)

/-- After a step that was suppressed, what is pending comes to the caller. -/
theorem balanced_of_suppressed (h : Executed model r step m (.ok none) executed)
    (pending : Option Message) : Balanced model r pending (found ++ executed) (.ok pending) := by
  obtain ⟨hturns, hpublications, hdeliveries⟩ := hfound.quiet
  obtain ⟨hnone, hnoTurn, hnoDelivery⟩ := h.routed hplaced (hfound.step?_self hplaced)
  exact balanced_ok_of_quiet (by simp [hturns, hnoTurn]) (by simp [hpublications, hnone])
    (by simp [hdeliveries, hnoDelivery])

/-- After a step that was executed, what was pending goes to the publisher, and what is left over of
the step is pending. -/
theorem balanced_of_executed {pending message : Option Message} {published events : List (Event S)}
    {result : CallResult} (h : Executed model r step m (.ok (some message)) executed)
    (hpublished : Published r true pending published)
    (hrest : Balanced model r message events result) :
    Balanced model r pending (found ++ (executed ++ (published ++ events))) result := by
  obtain ⟨hturns, hpublications, hdeliveries⟩ := hfound.quiet
  obtain ⟨hnone, hhands⟩ := h.routed hplaced (hfound.step?_self hplaced)
  obtain ⟨hgiven, hnoTurn, hnoDelivery⟩ := hpublished.quiet
  simp only [← List.append_assoc]
  refine Balanced.prepend (hhands.of_eq ?_ ?_) ?_ hrest
  · simp [hturns, hnoTurn]
  · simp [hdeliveries, hnoDelivery]
  · simp [hpublications, hnone, hgiven]

end Executed

/-- **System steps hand on what is left over**, one after another. -/
theorem Continued.routed {left : Nat} {pending : Option Message} {result : CallResult}
    {events : List (Event S)} (h : Continued model r true limit left pending result events) :
    Balanced model r pending events result := by
  -- What is pending differs from step to step, and each step says what becomes of it.
  induction h with
  | unresolved h => exact h.balanced_error _ _
  | settled h => exact h.balanced_ok _
  | exhausted h => exact h.balanced_error _ _
  | broken hfound h => exact balanced_of_broken hplaced hfound h _
  | suppressed hfound h => exact balanced_of_suppressed hplaced hfound h _
  | executed hfound h hpublished hrest ih =>
    exact balanced_of_executed hplaced hfound h hpublished ih

/-- So do a step that reacts to a message and the system steps after it. -/
theorem Answered.routed {m : Message} {result : CallResult} {events : List (Event S)}
    (h : Answered model r true limit m result events) : Balanced model r none events result := by
  cases h with
  | unresolved h => exact h.balanced_error _ _
  | unhandled h => exact h.balanced_ok _
  | broken hfound h => exact balanced_of_broken hplaced hfound h _
  | suppressed hfound h => exact balanced_of_suppressed hplaced hfound h _
  | executed hfound h hrest =>
    exact balanced_of_executed hplaced hfound h .none (hrest.routed hplaced)

end Routed

/-- What a call returns that does not fail: what is left over of the last step. A call that starts a
run returns nothing. -/
def Call.returns (model : Model (code S)) (ts : List Turn) : Call S → Option Message
  | .react _ => ts.getLast?.bind (Turn.leftOver model)
  | .run _ => none

section Course

variable {app : Application S} (hbuilt : app.Built) {r : RunnerId S} {x : Runner S}
  (hpublisher : x.publisher.isSome = true) {c : Call S} {events : List (Event S)}
  {model : Model (code S)} (hmodel : ∀ name, c.model? x = some name → model = app.model name)
include hbuilt hpublisher hmodel

/-- A call that does not fail hands on everything. -/
theorem Course.routed_ok {returned : Option Message} (h : Course app r x c (.ok returned) events) :
    events.filterMap (Event.publication? r) ++ returned.toList =
        (events.filterMap (Event.turn? r)).filterMap (Turn.leftOver model) ∧
      events.filterMap (Event.delivery? r) =
        (events.filterMap (Event.turn? r)).filterMap (Turn.toInbox model) ∧
      returned = c.returns model (events.filterMap (Event.turn? r)) := by
  cases h with
  | idle m h => exact ⟨rfl, rfl, rfl⟩
  | @reacted m name _ _ hrunning hname h =>
    rw [hpublisher, ← hmodel name hname] at h
    obtain ⟨hbalance, hdeliveries, hlast⟩ :=
      h.routed (hmodel name hname ▸ placed_of_build (hbuilt name))
    exact ⟨hbalance, hdeliveries, by rw [← hlast, lastLeft_none]; rfl⟩
  | @ran name _ trace h =>
    rw [hpublisher, ← hmodel name rfl] at h
    cases h with
    | @settled message events published h hpublished =>
      obtain ⟨hbalance, hdeliveries, -⟩ :=
        h.routed (hmodel name rfl ▸ placed_of_build (hbuilt name))
      obtain ⟨hgiven, hnoTurn, hnoDelivery⟩ := hpublished.quiet
      have hturns : (Event.ran r name :: (events ++ published)).filterMap (Event.turn? r) =
          events.filterMap (Event.turn? r) := by
        rw [List.filterMap_cons_none rfl, List.filterMap_append, hnoTurn, List.append_nil]
      rw [hturns, List.filterMap_cons_none rfl, List.filterMap_cons_none rfl,
        List.filterMap_append, List.filterMap_append, hgiven, hnoDelivery, hbalance, hdeliveries]
      simp [Call.returns]

/-- A call that fails loses what is left over of the last step that was executed before. -/
theorem Course.routed_error {e : RunnerError} (h : Course app r x c (.error e) events) :
    ∃ done failing, events.filterMap (Event.turn? r) = done ++ failing ∧ Breaks model failing ∧
      events.filterMap (Event.publication? r) ++
          (done.getLast?.bind (Turn.leftOver model)).toList =
        done.filterMap (Turn.leftOver model) := by
  cases h with
  | @reacted m name _ _ hrunning hname h =>
    rw [hpublisher, ← hmodel name hname] at h
    obtain ⟨done, failing, hturns, hbreaks, hbalance⟩ :=
      h.routed (hmodel name hname ▸ placed_of_build (hbuilt name))
    exact ⟨done, failing, hturns, hbreaks, by rw [← lastLeft_none, hbalance]; rfl⟩
  | @ran name _ trace h =>
    rw [hpublisher, ← hmodel name rfl] at h
    cases h with
    | failed h =>
      obtain ⟨done, failing, hturns, hbreaks, hbalance⟩ :=
        h.routed (hmodel name rfl ▸ placed_of_build (hbuilt name))
      exact ⟨done, failing, hturns, hbreaks, by rw [← lastLeft_none]; exact hbalance⟩

end Course

/-- What is read off the course of a call that was admitted. -/
theorem filterMap_entered {β : Type} {read : Event S → Option β} {r : RunnerId S}
    (hentered : read (.entered r) = none) (hleft : read (.left r) = none)
    (trace : List (Event S)) :
    (Event.entered r :: (trace ++ [.left r])).filterMap read = trace.filterMap read := by
  simp [hentered, hleft]

section Call

variable {app : Application S} (hbuilt : app.Built) (depth : Nat) (r : RunnerId S) (c : Call S)
  (w : World S)

include hbuilt in
/-- The steps that reacted in a call that was admitted are those that took a turn. -/
theorem reactions_of_admitted (hidle : (w.runner r).activity = .idle) {events : List (Event S)}
    (hjournal : (callWithin app (depth + 1) r c w).2.journal = events ++ w.journal) :
    reactions r events = (turns r events).map fun t => (t.step, t.message, t.output) := by
  obtain ⟨-, -, events', hjournal', -, haccount⟩ := callWithin_serves hbuilt depth r c hidle
  obtain ⟨model, hmodel⟩ := exists_model app (c.model? (w.runner r))
  rw [hjournal, ← List.append_assoc] at hjournal'
  rw [List.append_cancel_right hjournal']
  have hopening : turns r (c.opening r ++ [.entered r]) = [] ∧
      reactions r (c.opening r ++ [.entered r]) = [] := by
    cases c <;> exact ⟨rfl, rfl⟩
  have hturns : turns r (events' ++ (c.opening r ++ [.entered r])) = turns r events' := by
    rw [turns, readOff_append]
    exact (congrArg (· ++ _) hopening.1).trans (List.nil_append _)
  have hreactions : reactions r (events' ++ (c.opening r ++ [.entered r])) =
      reactions r events' := by
    rw [reactions, readOff_append]
    exact (congrArg (· ++ _) hopening.2).trans (List.nil_append _)
  rw [hturns, hreactions, (haccount model hmodel).reactions]

end Call

/-- **Nothing is lost of what steps publish, and nothing is doubled**, if the call does not fail.
The steps that reacted are those that took a turn, each with the output that the hook made of it.
What they published is delivered once if it is meant for an inbox. Everything else goes to the
publisher, in order, but for what the call returns: that is what is left over of the last step, or
nothing if the call starts a run. -/
theorem published_of_ok {app : Application S} (hbuilt : app.Built) (depth : Nat) (r : RunnerId S)
    (c : Call S) (w : World S) (hpublisher : (w.runner r).publisher.isSome = true)
    (returned : Option Message) (hok : (callWithin app depth r c w).1 = .ok returned) :
    ∃ events, (callWithin app depth r c w).2.journal = events ++ w.journal ∧
      reactions r events = (turns r events).map (fun t => (t.step, t.message, t.output)) ∧
      ∀ model, (∀ name, c.model? (w.runner r) = some name → model = app.model name) →
        publications r events ++ returned.toList =
            (turns r events).filterMap (Turn.leftOver model) ∧
          deliveries r events = (turns r events).filterMap (Turn.toInbox model) ∧
          returned = c.returns model (turns r events) := by
  rcases refused_or_admitted app depth r c w with ⟨label, hrefused⟩ | ⟨hidle, d, rfl⟩
  · rw [hrefused] at hok
    cases hok
  obtain ⟨events, trace, hjournal, hown, hcourse⟩ := callWithin_course app d r c hidle
  rw [hok] at hcourse
  refine ⟨events, hjournal, reactions_of_admitted hbuilt d r c w hidle hjournal,
    fun model hmodel => ?_⟩
  rw [turns_own, publications_own, deliveries_own, hown, filterMap_entered rfl rfl,
    filterMap_entered rfl rfl, filterMap_entered rfl rfl]
  exact hcourse.routed_ok hbuilt hpublisher hmodel

namespace Shop

/-- The world after something was ordered, and whether the warehouse is still open. -/
def ordered (isOpen : Bool) : World signature :=
  after [.call clerk (.run ()), .call clerk (.react order), .writeState isOpen]

/-- What the call noted in which the order is paid for with cash. -/
def payment (isOpen : Bool) : List (Event signature) :=
  (call application clerk (.react (pay "cash")) (ordered isOpen)).2.journal.take
    ((call application clerk (.react (pay "cash")) (ordered isOpen)).2.journal.length -
      (ordered isOpen).journal.length)

theorem eq_payment {isOpen : Bool} {events : List (Event signature)}
    (h : (call application clerk (.react (pay "cash")) (ordered isOpen)).2.journal =
      events ++ (ordered isOpen).journal) : events = payment isOpen := by
  rw [payment, h, List.length_append, Nat.add_sub_cancel, List.take_left]

end Shop

/-- A receipt goes to the publisher, a parcel to the warehouse and thanks to the caller. -/
theorem published_on_paid_order :
    ((Shop.ordered true).runner Shop.clerk).publisher.isSome = true ∧
    (call Shop.application Shop.clerk (.react (Shop.pay "cash")) (Shop.ordered true)).1 =
      .ok (some (Shop.news "thanks")) ∧
    publications Shop.clerk (Shop.payment true) = [Shop.news "receipt"] ∧
    deliveries Shop.clerk (Shop.payment true) = [("Warehouse", Shop.news "parcel")] ∧
    publications Shop.clerk (Shop.payment true) ++ [Shop.news "thanks"] =
      (turns Shop.clerk (Shop.payment true)).filterMap
        (Turn.leftOver (Shop.application.model ())) := by
  have hpublisher : ((Shop.ordered true).runner Shop.clerk).publisher.isSome = true := by
    decide +kernel
  have hok : (call Shop.application Shop.clerk (.react (Shop.pay "cash")) (Shop.ordered true)).1 =
      .ok (some (Shop.news "thanks")) := by decide +kernel
  obtain ⟨events, hjournal, -, hrouted⟩ := published_of_ok Shop.built 1 Shop.clerk
    (.react (Shop.pay "cash")) (Shop.ordered true) hpublisher _ hok
  obtain ⟨hbalance, -, -⟩ := hrouted (Shop.application.model ()) fun _ _ => rfl
  rw [Shop.eq_payment hjournal] at hbalance
  exact ⟨hpublisher, hok, by decide +kernel, by decide +kernel, hbalance⟩

/-- **A call that fails loses what is pending.** Its steps were executed one after another,
until the call broke off: no step was left, or the last one or two failed, refer to nothing or
publish to an inbox. What is left over of the steps before goes to the publisher, in order and once,
but for what is left over of the last one of them. -/
theorem published_of_error {app : Application S} (hbuilt : app.Built) (depth : Nat)
    (r : RunnerId S) (c : Call S) (w : World S)
    (hpublisher : (w.runner r).publisher.isSome = true) (e : RunnerError)
    (herror : (callWithin app depth r c w).1 = .error e) :
    ∃ events, (callWithin app depth r c w).2.journal = events ++ w.journal ∧
      reactions r events = (turns r events).map (fun t => (t.step, t.message, t.output)) ∧
      ∀ model, (∀ name, c.model? (w.runner r) = some name → model = app.model name) →
        ∃ done failing, turns r events = done ++ failing ∧
          (failing.length ≤ 2 ∧ ∀ t ∈ failing, t.Unfinished model) ∧
          publications r events ++ (done.getLast?.bind (Turn.leftOver model)).toList =
            done.filterMap (Turn.leftOver model) := by
  rcases refused_or_admitted app depth r c w with ⟨label, hrefused⟩ | ⟨hidle, d, rfl⟩
  · refine ⟨[.refused r label], by rw [hrefused]; rfl, rfl, fun model _ => ⟨[], [], rfl, ?_, rfl⟩⟩
    exact ⟨Nat.zero_le _, fun _ ht => absurd ht List.not_mem_nil⟩
  obtain ⟨events, trace, hjournal, hown, hcourse⟩ := callWithin_course app d r c hidle
  rw [herror] at hcourse
  refine ⟨events, hjournal, reactions_of_admitted hbuilt d r c w hidle hjournal,
    fun model hmodel => ?_⟩
  rw [turns_own, publications_own, hown, filterMap_entered rfl rfl, filterMap_entered rfl rfl]
  exact hcourse.routed_error hbuilt hpublisher hmodel

/-- If the warehouse is closed, the payment was executed and the parcel is refused. -/
theorem published_on_refused_parcel :
    ((Shop.ordered false).runner Shop.clerk).publisher.isSome = true ∧
    (call Shop.application Shop.clerk (.react (Shop.pay "cash")) (Shop.ordered false)).1 =
      .error (.delivery "closed") ∧
    ∃ done failing, turns Shop.clerk (Shop.payment false) = done ++ failing ∧
      (failing.length ≤ 2 ∧ ∀ t ∈ failing, t.Unfinished (Shop.application.model ())) ∧
      publications Shop.clerk (Shop.payment false) ++
          (done.getLast?.bind (Turn.leftOver (Shop.application.model ()))).toList =
        done.filterMap (Turn.leftOver (Shop.application.model ())) := by
  have hpublisher : ((Shop.ordered false).runner Shop.clerk).publisher.isSome = true := by
    decide +kernel
  have herror : (call Shop.application Shop.clerk (.react (Shop.pay "cash"))
      (Shop.ordered false)).1 = .error (.delivery "closed") := by decide +kernel
  obtain ⟨events, hjournal, -, hrouted⟩ := published_of_error Shop.built 1 Shop.clerk
    (.react (Shop.pay "cash")) (Shop.ordered false) hpublisher _ herror
  have hlost := hrouted (Shop.application.model ()) fun _ _ => rfl
  rw [Shop.eq_payment hjournal] at hlost
  exact ⟨hpublisher, herror, hlost⟩

/-- **The receipt is lost**: the payment reacted, did not fail and published a receipt, which is
meant for no inbox. The call fails because the parcel is refused, and nothing was given to the
publisher. -/
theorem receipt_lost :
    Reachable Shop.application (Shop.ordered false) ∧
    ((Shop.ordered false).runner Shop.clerk).publisher.isSome = true ∧
    (call Shop.application Shop.clerk (.react (Shop.pay "cash")) (Shop.ordered false)).1 =
      .error (.delivery "closed") ∧
    (call Shop.application Shop.clerk (.react (Shop.pay "cash")) (Shop.ordered false)).2.journal =
      Shop.payment false ++ (Shop.ordered false).journal ∧
    (turns Shop.clerk (Shop.payment false)).filterMap
      (Turn.leftOver (Shop.application.model ())) = [Shop.news "receipt"] ∧
    publications Shop.clerk (Shop.payment false) = [] := by
  obtain ⟨events, hjournal⟩ := callWithin_grows Shop.application 1 Shop.clerk
    (.react (Shop.pay "cash")) (Shop.ordered false)
  refine ⟨Shop.reachable_after _, by decide +kernel, by decide +kernel, ?_, by decide +kernel,
    by decide +kernel⟩
  rw [← Shop.eq_payment hjournal.symm]
  exact hjournal.symm

end UseCaseEngine
