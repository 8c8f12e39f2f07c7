import UseCaseEngine.Proofs.Turns
import UseCaseEngine.Run.World

/-!
# What the journal says

The journal notes what happened, the latest first. Here it is read: which turns a runner's steps
took, which of them were triggered and reacted, which model the runner runs, and what its log of
recorded steps must be. The journal is there for results only: it answers no request, and a world
does the same whatever was noted.

* `readOff_append`, `Recording.replay_append`: what is read off a journal is what was read before,
  and then what is read off the events that were added.
* `ranModel?_append`, `sinceRun_append`: the model that was run last stays so until one is run
  again, and what is noted meanwhile has happened since.
* `eq_drop_of_foreign`: where an event stands in a journal that can be computed.
-/

namespace UseCaseEngine

variable {S : Signature}

namespace Event

/-- The runner whose call the event is part of. Whoever starts or stops a recording, it is part of
no call. -/
def session? : Event S → Option (RunnerId S)
  | .entered r | .left r | .ran r _ | .resolved r _ _ _ _ _ | .offered r _ _ | .triggered r _ _ _
  | .reacted r _ _ _ _ | .moved r _ | .delivered r _ _ | .published r _ => some r
  | .refused _ _ | .recording _ _ | .accepted _ _ | .taken _ _ | .handed _ _ | .consumed _ _ => none

/-- The event tells what became of a call: it was admitted or refused, or it ended. -/
def isCall : Event S → Bool
  | .entered _ | .refused _ _ | .left _ => true
  | _ => false

variable (r : RunnerId S)

/-- The turn that a step of the runner took. -/
def turn? : Event S → Option Turn
  | .moved r' turn => if r' = r then some turn else none
  | _ => none

/-- The step that a refused call on the runner was blamed on. -/
def blame? : Event S → Option String
  | .refused r' step => if r' = r then some step else none
  | _ => none

/-- The step of the runner that was offered a message. -/
def offer? : Event S → Option (StepId × Message)
  | .offered r' step m => if r' = r then some (step, m) else none
  | _ => none

/-- The step of the runner that was triggered, and its message. -/
def trigger? : Event S → Option (StepId × Message)
  | .triggered r' step m _ => if r' = r then some (step, m) else none
  | _ => none

/-- The step of the runner that reacted, its message, and what the hook made of its output. -/
def reaction? : Event S → Option (StepId × Message × Output)
  | .reacted r' step m output _ => if r' = r then some (step, m, output) else none
  | _ => none

/-- The cursor that a step of the runner was resolved at. -/
def resolvedAt? : Event S → Option Cursor
  | .resolved r' _ _ c _ _ => if r' = r then some c else none
  | _ => none

/-- The model that the runner was put at the start of. -/
def ran? : Event S → Option S.ModelName
  | .ran r' model => if r' = r then some model else none
  | _ => none

/-- The recording of the runner was started, or stopped. -/
def recording? : Event S → Option Bool
  | .recording r' on => if r' = r then some on else none
  | _ => none

variable {r}

theorem eq_refused_of_blame? {e : Event S} {step : String} (h : e.blame? r = some step) :
    e = .refused r step := by
  cases e <;> simp_all [blame?]

theorem eq_offered_of_offer? {e : Event S} {step : StepId} {m : Message}
    (h : e.offer? r = some (step, m)) : e = .offered r step m := by
  cases e <;> simp_all [offer?]

theorem eq_reacted_of_reaction? {e : Event S} {step : StepId} {m : Message} {output : Output}
    (h : e.reaction? r = some (step, m, output)) :
    ∃ state, e = .reacted r step m output state := by
  cases e <;> simp_all [reaction?]

theorem eq_recording_of_recording? {e : Event S} {on : Bool} (h : e.recording? r = some on) :
    e = .recording r on := by
  cases e <;> simp_all [recording?]

theorem eq_ran_of_ran? {e : Event S} {model : S.ModelName} (h : e.ran? r = some model) :
    e = .ran r model := by
  cases e <;> simp_all [ran?]

theorem eq_moved_of_turn? {e : Event S} {t : Turn} (h : e.turn? r = some t) : e = .moved r t := by
  cases e <;> simp_all [turn?]

end Event

/-- What a journal says, in order. -/
def readOff {β : Type} (read : Event S → Option β) (events : List (Event S)) : List β :=
  (events.filterMap read).reverse

theorem readOff_append {β : Type} (read : Event S → Option β) (new old : List (Event S)) :
    readOff read (new ++ old) = readOff read old ++ readOff read new := by
  simp [readOff]

@[simp] theorem readOff_nil {β : Type} (read : Event S → Option β) : readOff read [] = [] := rfl

theorem readOff_cons {β : Type} (read : Event S → Option β) (e : Event S)
    (old : List (Event S)) : readOff read (e :: old) = readOff read old ++ (read e).toList := by
  cases h : read e <;> simp [readOff, h]

theorem readOff_eq_nil_iff {β : Type} {read : Event S → Option β} {events : List (Event S)} :
    readOff read events = [] ↔ ∀ e ∈ events, read e = none := by
  simp [readOff]

section Runner

variable (r : RunnerId S)

/-- The turns of a runner's steps. -/
def turns : List (Event S) → List Turn := readOff (Event.turn? r)

/-- What was offered to a runner's steps. -/
def offers : List (Event S) → List (StepId × Message) := readOff (Event.offer? r)

/-- The steps of a runner that were triggered. -/
def triggers : List (Event S) → List (StepId × Message) := readOff (Event.trigger? r)

/-- An event that triggers none of them adds nothing. -/
theorem triggers_cons_of_none {e : Event S} (he : e.trigger? r = none) (old : List (Event S)) :
    triggers r (e :: old) = triggers r old := by
  unfold triggers
  rw [readOff_cons, he]
  exact List.append_nil _

/-- The steps of a runner that reacted. -/
def reactions : List (Event S) → List (StepId × Message × Output) := readOff (Event.reaction? r)

omit r in
/-- Where something can be read off a journal, an event stands that tells it. -/
theorem exists_event {journal : List (Event S)} {k : Nat} {β : Type} {read : Event S → Option β}
    {b : β} (h : journal[k]?.bind read = some b) :
    ∃ e, read e = some b ∧ journal.drop k = e :: journal.drop (k + 1) := by
  obtain ⟨e, hget, he⟩ := Option.bind_eq_some_iff.mp h
  obtain ⟨hlt, hget⟩ := List.getElem?_eq_some_iff.mp hget
  exact ⟨e, he, by rw [← hget, List.drop_eq_getElem_cons hlt]⟩

variable {r} in
/-- Where what was noted last is part of the runner's call, nothing else can have been noted since
another thing that is. -/
theorem eq_drop_of_foreign {journal since before : List (Event S)} {k : Nat} {e : Event S}
    (h : journal.drop k = since ++ e :: before) (hforeign : ∀ e ∈ since, e.session? ≠ some r)
    (hown : (journal.drop k).head?.bind Event.session? = some r) :
    before = journal.drop (k + 1) := by
  cases since with
  | nil =>
    have htail := congrArg List.tail h
    rw [List.tail_drop] at htail
    exact htail.symm
  | cons e since =>
    rw [h] at hown
    exact absurd hown (hforeign e List.mem_cons_self)

variable {r} in
/-- Where a turn can be read off a journal, it was taken after what is below it. -/
theorem exists_moved {journal : List (Event S)} {k : Nat} {β : Type} {read : Turn → β} {b : β}
    (h : (journal[k]?.bind (Event.turn? r)).map read = some b) :
    ∃ t, read t = b ∧ journal.drop k = .moved r t :: journal.drop (k + 1) := by
  obtain ⟨t, hturn, hread⟩ := Option.map_eq_some_iff.mp h
  obtain ⟨e, he, hdrop⟩ := exists_event hturn
  obtain rfl := Event.eq_moved_of_turn? he
  exact ⟨t, hread, hdrop⟩

variable {r} in
/-- So can a turn that did not fail. -/
theorem exists_moved_ok {journal : List (Event S)} {k : Nat} {id : StepId}
    (h : (journal[k]?.bind (Event.turn? r)).map (fun t => (t.step, t.output.isOk)) =
      some (id, true)) :
    ∃ t message, t.step = id ∧ t.output = .ok message ∧
      journal.drop k = .moved r t :: journal.drop (k + 1) := by
  obtain ⟨t, hread, hdrop⟩ := exists_moved h
  have hok : t.output.isOk = true := congrArg Prod.snd hread
  cases houtput : t.output with
  | error failure =>
    rw [houtput] at hok
    cases hok
  | ok message => exact ⟨t, message, congrArg Prod.fst hread, houtput, hdrop⟩

/-- The model that a runner was put at the start of last. -/
def ranModel? (journal : List (Event S)) : Option S.ModelName := journal.findSome? (Event.ran? r)

/-- What happened since. -/
def sinceRun (journal : List (Event S)) : List (Event S) :=
  journal.takeWhile fun e => (e.ran? r).isNone

theorem ranModel?_append {new : List (Event S)} (h : ∀ e ∈ new, e.ran? r = none)
    (old : List (Event S)) : ranModel? r (new ++ old) = ranModel? r old := by
  have hnew : new.findSome? (Event.ran? r) = none := List.findSome?_eq_none_iff.mpr h
  simp [ranModel?, List.findSome?_append, hnew]

theorem sinceRun_append {new : List (Event S)} (h : ∀ e ∈ new, e.ran? r = none)
    (old : List (Event S)) : sinceRun r (new ++ old) = new ++ sinceRun r old := by
  unfold sinceRun
  rw [List.takeWhile_append_of_pos]
  intro e he
  rw [h e he]
  rfl

/-- What the log of a runner becomes by what happened, if the runner runs the model. -/
def Recording.hear (model : Model (code S)) (e : Event S) (x : Recording) : Recording :=
  match e with
  | .reacted r' step m _ _ =>
    if r' = r then
      match model.step? step with
      | some step => x.record step.name m.type
      | none => x
    else x
  | .recording r' on => if r' = r then if on then x.start else x.stop else x
  | _ => x

/-- What the log of a runner becomes by several things that happened, the latest first. -/
def Recording.replay (model : Model (code S)) (x : Recording) (events : List (Event S)) :
    Recording :=
  events.foldr (Recording.hear r model) x

@[simp] theorem Recording.replay_nil (model : Model (code S)) (x : Recording) :
    x.replay r model [] = x := rfl

@[simp] theorem Recording.replay_cons (model : Model (code S)) (x : Recording) (e : Event S)
    (old : List (Event S)) : x.replay r model (e :: old) = (x.replay r model old).hear r model e :=
  rfl

theorem Recording.replay_append (model : Model (code S)) (x : Recording)
    (new old : List (Event S)) :
    x.replay r model (new ++ old) = (x.replay r model old).replay r model new := by
  simp [Recording.replay]

/-- As many names as types. -/
def Recording.Paired (x : Recording) : Prop := x.stepLog.length = x.typeLog.length

theorem Recording.Paired.hear {model : Model (code S)} {x : Recording} (h : x.Paired)
    (e : Event S) : (x.hear r model e).Paired := by
  have hrecord (step : String) (type : MessageType) : (x.record step type).Paired := by
    unfold Recording.Paired Recording.record at *
    split <;> simp [h]
  unfold Recording.hear
  split
  · split
    · split
      · exact hrecord _ _
      · exact h
    · exact h
  · split
    · split
      · rfl
      · exact h
    · exact h
  · exact h

theorem Recording.Paired.replay {model : Model (code S)} {x : Recording} (h : x.Paired)
    (events : List (Event S)) : (x.replay r model events).Paired := by
  induction events with
  | nil => exact h
  | cons e old ih => exact ih.hear r e

end Runner

end UseCaseEngine
