import UseCaseEngine.Proofs.Course
import UseCaseEngine.Proofs.Reach

/-!
# What comes before what

What a runner's calls note of a step comes in one order only: the step is resolved, then a message
is offered to it, then it is triggered, then it reacts, and then it takes its turn. What others note
may stand in between, but nothing that a call of the same runner notes.

* `Event.ComesAfter`: what must come right before an event.
* `Course.selfContained`: what a call notes is in this order, whatever came before it.
* **`sequenced_of_reachable`**: so is every journal, as far as one runner's calls are concerned.
* `Sequenced.exists_before`: and what led to an event can be found in it.
-/

namespace UseCaseEngine

variable {S : Signature}

/-! ## The order of events -/

/-- The event of a call comes right after another one, if any, and may come there. -/
def Event.ComesAfter : Event S → Option (Event S) → Prop
  | .offered r id _, previous =>
    ∃ scope c actor state, previous = some (.resolved r id scope c actor state)
  | .triggered r id m _, previous => previous = some (.offered r id m)
  | .reacted r id m _ _, previous => ∃ raw, previous = some (.triggered r id m raw)
  | .moved r t, previous => ∃ state, previous = some (.reacted r t.step t.message t.output state)
  | _, _ => True

/-- The events, the earliest first, come after one another as they may, the first one after what
came before it. -/
def Sequenced : Option (Event S) → List (Event S) → Prop
  | _, [] => True
  | previous, e :: events => e.ComesAfter previous ∧ Sequenced (some e) events

/-- Nothing needs to come before the events. -/
def SelfContained (events : List (Event S)) : Prop := ∀ previous, Sequenced previous events

theorem sequenced_append {previous : Option (Event S)} {es fs : List (Event S)} :
    Sequenced previous (es ++ fs) ↔
      Sequenced previous es ∧ Sequenced (es.getLast?.or previous) fs := by
  induction es generalizing previous with
  | nil => simp [Sequenced]
  | cons e es ih =>
    have hlast : ((e :: es).getLast?).or previous = es.getLast?.or (some e) := by
      cases h : es.getLast? <;> simp [List.getLast?_cons, h]
    rw [List.cons_append, Sequenced, Sequenced, ih, hlast, and_assoc]

theorem SelfContained.append {es fs : List (Event S)} (hes : SelfContained es)
    (hfs : SelfContained fs) : SelfContained (es ++ fs) :=
  fun previous => sequenced_append.mpr ⟨hes previous, hfs _⟩

theorem selfContained_nil : SelfContained ([] : List (Event S)) := fun _ => trivial

/-- An event that may come anywhere. -/
theorem selfContained_singleton {e : Event S} (h : ∀ previous, e.ComesAfter previous) :
    SelfContained [e] := fun previous => ⟨h previous, trivial⟩

/-! ## Calls keep the order -/

section Rules

variable {model : Model (code S)} {r : RunnerId S}

theorem Found.selfContained {type : MessageType} {scope : Scope}
    {result : Except RunnerError (Option (Step (code S)))} {events : List (Event S)}
    (h : Found model r type scope result events) : SelfContained events := by
  cases h with
  | failed e => exact selfContained_nil
  | none => exact selfContained_nil
  | some _ _ => exact selfContained_singleton fun _ => trivial

/-- A step takes its turn right after it reacted. -/
theorem Concluded.sequenced {step : Step (code S)} {m : Message} {output : Output}
    {result : Except RunnerError Reacted} {events : List (Event S)}
    (h : Concluded model r step m output result events) (state : S.State) :
    Sequenced (some (.reacted r step.id m output state)) events := by
  cases h with
  | failed failure => exact ⟨⟨state, rfl⟩, trivial⟩
  | dangling _ message answers => exact ⟨⟨state, rfl⟩, trivial⟩
  | done _ _ answers => exact ⟨⟨state, rfl⟩, trivial⟩
  | delivered _ _ message answers reply => exact ⟨⟨state, rfl⟩, trivial, trivial⟩

/-- A step that was resolved is offered next. -/
theorem Found.offered {type : MessageType} {scope : Scope} {step : Step (code S)} {m : Message}
    {result : Except RunnerError Reacted} {found offered : List (Event S)}
    (hfound : Found model r type scope (.ok (Option.some step)) found)
    (hoffered : Offered model r step m result offered) : SelfContained (found ++ offered) := by
  cases hfound with
  | @some _ c actor _ state =>
    intro previous
    cases hoffered with
    | suppressed => exact ⟨trivial, ⟨scope, c, actor, state, rfl⟩, trivial⟩
    | reacted raw left h =>
      exact ⟨trivial, ⟨scope, c, actor, state, rfl⟩, rfl, ⟨raw, rfl⟩, h.sequenced left⟩

theorem Handled.selfContained {failed : Step (code S)} {failure : Failure}
    {result : Except RunnerError (Option Message)} {events : List (Event S)}
    (h : Handled model r failed failure result events) : SelfContained events := by
  cases h with
  | unresolved hfound => exact hfound.selfContained
  | uncaught hfound => exact hfound.selfContained
  | suppressed hfound hoffered => exact hfound.offered hoffered
  | broken hfound hoffered => exact hfound.offered hoffered
  | failed hfound hoffered => exact hfound.offered hoffered
  | handled hfound hoffered => exact hfound.offered hoffered

/-- A step that was resolved is executed next. -/
theorem Found.executed {type : MessageType} {scope : Scope} {step : Step (code S)} {m : Message}
    {result : Except RunnerError (Option (Option Message))} {found executed : List (Event S)}
    (hfound : Found model r type scope (.ok (Option.some step)) found)
    (hexecuted : Executed model r step m result executed) : SelfContained (found ++ executed) := by
  cases hexecuted with
  | broken hoffered => exact hfound.offered hoffered
  | suppressed hoffered => exact hfound.offered hoffered
  | published hoffered => exact hfound.offered hoffered
  | uncaught _ hoffered => exact hfound.offered hoffered
  | failed _ hoffered hhandled =>
    rw [← List.append_assoc]
    exact (hfound.offered hoffered).append hhandled.selfContained

variable {installed : Bool}

theorem Published.selfContained {message : Option Message} {events : List (Event S)}
    (h : Published r installed message events) : SelfContained events := by
  cases h with
  | none => exact selfContained_nil
  | dropped => exact selfContained_nil
  | published m => exact selfContained_singleton fun _ => trivial

variable {limit : Nat}

theorem Continued.selfContained {left : Nat} {pending : Option Message} {result : CallResult}
    {events : List (Event S)} (h : Continued model r installed limit left pending result events) :
    SelfContained events := by
  induction h with
  | unresolved hfound => exact hfound.selfContained
  | settled hfound => exact hfound.selfContained
  | exhausted hfound => exact hfound.selfContained
  | broken hfound hexecuted => exact hfound.executed hexecuted
  | suppressed hfound hexecuted => exact hfound.executed hexecuted
  | executed hfound hexecuted hpublished _ ih =>
    rw [← List.append_assoc]
    exact (hfound.executed hexecuted).append (hpublished.selfContained.append ih)

theorem Answered.selfContained {m : Message} {result : CallResult} {events : List (Event S)}
    (h : Answered model r installed limit m result events) : SelfContained events := by
  cases h with
  | unresolved hfound => exact hfound.selfContained
  | unhandled hfound => exact hfound.selfContained
  | broken hfound hexecuted => exact hfound.executed hexecuted
  | suppressed hfound hexecuted => exact hfound.executed hexecuted
  | executed hfound hexecuted hrest =>
    rw [← List.append_assoc]
    exact (hfound.executed hexecuted).append hrest.selfContained

theorem Begun.selfContained {result : CallResult} {events : List (Event S)}
    (h : Begun model r installed limit result events) : SelfContained events := by
  cases h with
  | failed h => exact h.selfContained
  | settled h hpublished => exact h.selfContained.append hpublished.selfContained

end Rules

/-- **What a call notes is in order**, whatever came before it. -/
theorem Course.selfContained {app : Application S} {r : RunnerId S} {x : Runner S} {c : Call S}
    {result : CallResult} {events : List (Event S)} (h : Course app r x c result events) :
    SelfContained events := by
  cases h with
  | idle => exact selfContained_nil
  | reacted _ _ h => exact h.selfContained
  | @ran name _ _ h =>
    have hran : SelfContained [Event.ran r name] := selfContained_singleton fun _ => trivial
    exact hran.append h.selfContained

/-! ## Journals are in order -/

section Journal

variable {r : RunnerId S}

/-- Calls add to a journal in order. -/
theorem sequenced_own_append {events journal : List (Event S)}
    (h : Sequenced none (own r journal)) (hevents : SelfContained (own r events)) :
    Sequenced none (own r (events ++ journal)) := by
  rw [own_append]
  exact sequenced_append.mpr ⟨h, hevents _⟩

theorem lasting_sequenced (app : Application S) (r : RunnerId S) :
    Lasting app r fun w => Sequenced none (own r w.journal) where
  apart hjournal hapart h := by
    rw [hjournal]
    exact sequenced_own_append h (own_of_foreign hapart.foreign ▸ selfContained_nil)
  call depth c w hidle _ h := by
    obtain ⟨events, trace, hjournal, hown, hcourse⟩ := callWithin_course app depth r c hidle
    rw [hjournal]
    refine sequenced_own_append h ?_
    rw [hown]
    have hentered : SelfContained [Event.entered r] := selfContained_singleton fun _ => trivial
    have hleft : SelfContained [Event.left r] := selfContained_singleton fun _ => trivial
    exact hentered.append (hcourse.selfContained.append hleft)

/-- **Every journal is in order** as far as one runner's calls are concerned. -/
theorem sequenced_of_reachable {app : Application S} (hbuilt : app.Built) {w : World S}
    (h : Reachable app w) (r : RunnerId S) : Sequenced none (own r w.journal) := by
  have hfresh (w : World S) (hw : w.Fresh) : Sequenced none (own r w.journal) := by
    rw [hw.journal]
    trivial
  exact ((lasting_sequenced app r).of_reachable hbuilt hfresh h).2.2

/-- The latest event of a runner's calls stands in the journal, with those of others after it. -/
theorem exists_latest {e : Event S} {journal : List (Event S)}
    (h : (own r journal).getLast? = some e) :
    ∃ since before, journal = since ++ e :: before ∧ ∀ e' ∈ since, e'.session? ≠ some r := by
  induction journal with
  | nil => cases h
  | cons e' journal ih =>
    rw [← List.singleton_append, own_append] at h
    by_cases he' : e'.session? = some r
    · rw [own_singleton he', List.getLast?_concat] at h
      cases h
      exact ⟨[], journal, rfl, fun _ h => absurd h List.not_mem_nil⟩
    · rw [own_of_foreign (List.forall_mem_singleton.mpr he'), List.append_nil] at h
      obtain ⟨since, before, rfl, hsince⟩ := ih h
      exact ⟨e' :: since, before, rfl, List.forall_mem_cons.mpr ⟨he', hsince⟩⟩

/-- What an event of a runner's calls comes after. -/
theorem Sequenced.exists_before {e : Event S} {earlier journal : List (Event S)}
    (h : Sequenced none (own r journal)) (he : e.session? = some r)
    (hsuffix : e :: earlier <:+ journal) : e.ComesAfter (own r earlier).getLast? := by
  obtain ⟨later, rfl⟩ := hsuffix
  rw [own_append, ← List.singleton_append, own_append, own_singleton he] at h
  have hupto := (sequenced_append.mp h).1
  have hlast := (sequenced_append.mp hupto).2
  rw [Option.or_none] at hlast
  exact hlast.1

end Journal

end UseCaseEngine
