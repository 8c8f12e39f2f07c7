import UseCaseEngine.Proofs.Counting

/-!
# A queue in service

To stop a queue takes several steps: `stop` raises a flag, gives the worker a signal, and waits for
the worker's end unless the worker itself made the call. A `put` looks at the flag only, the worker
at the signal only, and others go on in between. Of several calls to stop a queue the first one does
all this; those that find the flag up return at once.

A `Service` is a queue with the puts, the worker and the calls to stop it all in the middle of what
they do; each of their steps is an act of its own, and any act can be next.

* **Puts** count, send and uncount, as in `Counter`.
* **The worker** receives a message, looks at the signal, counts the message off, starts to handle
  it, and comes to its end or dies over it. When its hands are free it looks at the signal as well.
  Once it has looked it goes on with what it received, whatever comes in between.
* **A call to stop** raises the flag, signals, and joins. From within the handling of a message it
  does not wait, and until it has returned the handling does not end.

Out of scope: how the worker waits while it has nothing to do, and what is done with a message that
it received and dropped.

* `Service.Tidy.step`: **one act** counts nothing off at zero and leaves every message, and every
  call, in one place.
* `Service.Onward`: what an act keeps; after the signal no message becomes due.
* `Service.Tidy.run`: and so do any number of acts, in whatever order.
-/

namespace UseCaseEngine

/-- The flag of the queue is up. -/
def Queue.flag (q : Queue) : Queue := { q with stopped := true }

/-- The worker is done with the message in its hand, or died over it. -/
def Queue.release (q : Queue) (died : Bool) : Queue :=
  { q with inHand := none, handling := false, worker := if died then .crashed else q.worker }

/-- Who stops a queue. -/
inductive Caller where
  | outside
  /-- The queue's worker, while it handles a message. -/
  | worker
  deriving DecidableEq, Repr

/-- A queue, with those who are in the middle of doing something with it. -/
structure Service extends Counter where
  /-- The worker looked at the signal since it received a message, and goes on. -/
  cleared : Bool := false
  /-- The worker was given the signal to stop. -/
  signalled : Bool := false
  /-- Who raised the flag. -/
  first : Option Caller := none
  /-- What that call came to, once it has returned. -/
  outcome : Option (Except QueueError Unit) := none

namespace Service

/-- A step of somebody. -/
inductive Act where
  /-- A put sees that the flag is down, and counts its message. -/
  | count
  /-- A put that has counted sends its message. -/
  | send (m : Message)
  /-- A put that could not send takes its count back. -/
  | uncount
  /-- The worker receives a message. -/
  | receive
  /-- The worker looks at the signal, and ends if it is given. -/
  | look
  /-- The worker counts off what it received. -/
  | countOff
  /-- The worker starts to handle the message in its hand. -/
  | hand
  /-- The worker handled it to its end, or died over it. -/
  | finish (died : Bool)
  /-- A call to stop the queue raises the flag. -/
  | raise (caller : Caller)
  /-- The call that raised the flag signals. -/
  | signal
  /-- It finds that the worker is gone, or that it need not wait for it. -/
  | join
  deriving DecidableEq, Repr

/-- Nothing happened to the queue of the name yet. -/
def fresh (name : String) : Service := { Counter.fresh name with }

section Acts

variable (s : Service)

/-- The service with another queue. -/
def withQueue (q : Queue) : Service := { s with toCounter := s.setQueue q }

/-- What comes of a step that is only about the queue and its counter. -/
def counted (a : Counter.Act) : Option Service :=
  (s.toCounter.step a).map fun d => { s with toCounter := d }

/-- The worker looks at the signal: with free hands, or before it goes on with what it received. -/
def look : Service :=
  match s.ledger.queue.worker, s.ledger.queue.inHand, s.cleared with
  | .alive, none, false =>
    if s.signalled then
      { s.withQueue { s.ledger.queue with worker := .ended } with
        received := [], dropped := s.dropped ++ s.received }
    else { s with cleared := !s.received.isEmpty }
  | _, _, _ => s

/-- The worker counts off what it goes on with; nothing comes of it at zero. -/
def countOff : Option Service :=
  match s.cleared, s.received with
  | true, m :: rest =>
    s.ledger.queue.uncount?.map fun q =>
      { s with
        ledger := ({ s.ledger with queue := q.grip m } : Ledger).add m .taken
        received := rest
        cleared := false }
  | _, _ => some s

/-- The worker comes to the end of the message that it handles, but not in the middle of a call to
stop its own queue. -/
def finish (died : Bool) : Service :=
  match s.ledger.queue.inHand, s.ledger.queue.handling, s.first, s.outcome with
  | some _, true, some .worker, none => s
  | some m, true, _, _ =>
    { s with
      ledger := ({ s.ledger with queue := s.ledger.queue.release died } : Ledger).add m .consumed }
  | _, _, _, _ => s

variable {s} in
/-- A worker that is not in the middle of a call comes to the end of its message. -/
theorem finish_of_handling {m : Message} (hhand : s.ledger.queue.inHand = some m)
    (hbusy : s.ledger.queue.handling = true) (hfree : s.first = some .worker → s.outcome ≠ none)
    (died : Bool) :
    s.finish died = { s with
      ledger := ({ s.ledger with queue := s.ledger.queue.release died } : Ledger).add m
        .consumed } := by
  unfold finish
  split
  · rename_i hfirst hnone
    exact absurd hnone (hfree hfirst)
  · rename_i m' hm _ _
    rw [hhand] at hm
    cases hm
    rfl
  · rename_i hother _
    exact (hother m hhand hbusy).elim

/-- A call to stop the queue raises the flag, unless it is up. The worker makes such a call only
while it handles a message. -/
def raise (caller : Caller) : Service :=
  match s.ledger.queue.stopped, caller, s.ledger.queue.handling with
  | false, .outside, _ | false, .worker, true =>
    { s.withQueue s.ledger.queue.flag with first := some caller }
  | _, _, _ => s

/-- The call that raised the flag gives the signal. -/
def signal : Service := { s with signalled := s.first.isSome }

/-- The call that signalled returns: to the worker at once, to others when the worker is gone. -/
def join : Service :=
  match s.signalled, s.outcome, s.first, s.ledger.queue.worker with
  | true, none, some .worker, _ | true, none, some .outside, .ended =>
    { s with outcome := some (.ok ()) }
  | true, none, some .outside, .crashed =>
    { s with outcome := some (.error (.workerPanicked s.ledger.queue.name)) }
  | _, _, _, _ => s

/-- What comes of an act; nothing, if it counts off at zero. -/
def step : Act → Option Service
  | .count => s.counted .count
  | .send m => s.counted (.send m)
  | .uncount => s.counted .uncount
  | .receive => s.counted .receive
  | .look => some s.look
  | .countOff => s.countOff
  | .hand => s.counted .hand
  | .finish died => some (s.finish died)
  | .raise caller => some (s.raise caller)
  | .signal => some s.signal
  | .join => some s.join

/-- What comes of several acts. -/
def run (acts : List Act) : Option Service := acts.foldlM step s

variable {s} in
theorem run_cons {t : Service} {a : Act} (h : s.step a = some t) (acts : List Act) :
    s.run (a :: acts) = t.run acts := by
  rw [run, List.foldlM_cons, h]
  rfl

theorem run_append (acts more : List Act) :
    s.run (acts ++ more) = (s.run acts).bind fun t => t.run more :=
  List.foldlM_append

/-- What a call is told that makes the step, if it returns with it. -/
def answer? : Act → Option (Except QueueError Unit)
  | .count =>
    if s.ledger.queue.stopped then some (.error (.stopped s.ledger.queue.name)) else none
  | .send _ => if 0 < s.sending ∧ s.ledger.queue.worker = .alive then some (.ok ()) else none
  | .uncount => if 0 < s.failing then some (.error (.stopped s.ledger.queue.name)) else none
  | .raise _ => if s.ledger.queue.stopped then some (.ok ()) else none
  | .join => if s.outcome.isNone then s.join.outcome else none
  | _ => none

end Acts

end Service

/-! ## What a put does -/

/-- A put changes what waits, and who counts it; without a worker it only counts. -/
theorem Counter.put_cases {d d' : Counter} {a : Counter.Act}
    (ha : a = .count ∨ (∃ m, a = .send m) ∨ a = .uncount) (hstep : d.step a = some d') :
    ∃ size waiting accepted sending failing,
      d' = { d with
        ledger := { d.ledger with queue := { d.ledger.queue with size, waiting }, accepted }
        sending, failing } ∧
      (d.ledger.queue.worker ≠ .alive →
        waiting = d.ledger.queue.waiting ∧ accepted = d.ledger.accepted) := by
  have hsame : ∃ size waiting accepted sending failing,
      d = { d with
        ledger := { d.ledger with queue := { d.ledger.queue with size, waiting }, accepted }
        sending, failing } ∧
      (d.ledger.queue.worker ≠ .alive →
        waiting = d.ledger.queue.waiting ∧ accepted = d.ledger.accepted) :=
    ⟨_, _, _, _, _, rfl, fun _ => ⟨rfl, rfl⟩⟩
  rcases ha with rfl | ⟨m, rfl⟩ | rfl
  · unfold Counter.step at hstep
    dsimp only at hstep
    split at hstep
    · exact Option.some.inj hstep ▸ hsame
    · exact ⟨_, _, _, _, _, (Option.some.inj hstep).symm, fun _ => ⟨rfl, rfl⟩⟩
  · unfold Counter.step at hstep
    dsimp only at hstep
    split at hstep
    · exact Option.some.inj hstep ▸ hsame
    · rcases d.ledger.queue.send?_cases m with ⟨halive, hsend⟩ | ⟨-, hsend⟩ <;>
        rw [hsend] at hstep
      · exact ⟨_, _, _, _, _, (Option.some.inj hstep).symm, fun hgone => absurd halive hgone⟩
      · exact ⟨_, _, _, _, _, (Option.some.inj hstep).symm, fun _ => ⟨rfl, rfl⟩⟩
  · unfold Counter.step at hstep
    dsimp only at hstep
    split at hstep
    · exact Option.some.inj hstep ▸ hsame
    · unfold Queue.uncount? at hstep
      split at hstep
      · cases hstep
      · exact ⟨_, _, _, _, _, (Option.some.inj hstep).symm, fun _ => ⟨rfl, rfl⟩⟩

namespace Service

/-! ## What is known of a service -/

/-- What the worker will yet handle, whatever it is told. -/
def due (s : Service) : List Message := (if s.cleared then s.received else []) ++ s.ledger.held

/-- Every message is in one place, and so is every call. -/
structure Tidy (s : Service) : Prop where
  counts : s.toCounter.Sound
  taken : s.ledger.taken = s.ledger.consumed ++ s.ledger.queue.inHand.toList
  handed : s.ledger.handed = s.ledger.consumed ++ s.ledger.underway
  busy : s.ledger.queue.handling = true → s.ledger.queue.inHand.isSome = true
  /-- A worker has one message at most, and none when it is gone. -/
  received : s.received = [] ∧ s.cleared = false ∨
    s.ledger.queue.worker = .alive ∧ s.ledger.queue.inHand = none ∧ ∃ m, s.received = [m]
  gone : s.ledger.queue.worker ≠ .alive → s.ledger.queue.inHand = none
  ended : s.ledger.queue.worker = .ended → s.signalled = true
  flag : s.ledger.queue.stopped = s.first.isSome
  signalled : s.signalled = true → s.first.isSome = true
  /-- The first call returns when it has signalled, and to others than the worker only when the
  worker is gone. -/
  outcome : ∀ result, s.outcome = some result → s.signalled = true ∧
    (s.first = some .worker ∧ result = .ok () ∨
      s.first = some .outside ∧ s.ledger.queue.worker ≠ .alive ∧ result =
        if s.ledger.queue.worker = .crashed then .error (.workerPanicked s.ledger.queue.name)
        else .ok ())

theorem tidy_fresh (name : String) : (fresh name).Tidy where
  counts := Counter.sound_fresh name
  taken := rfl
  handed := rfl
  busy := nofun
  received := .inl ⟨rfl, rfl⟩
  gone := fun _ => rfl
  ended := nofun
  flag := rfl
  signalled := nofun
  outcome := nofun

/-- What an act keeps. -/
structure Onward (s t : Service) : Prop where
  tidy : t.Tidy
  name : t.ledger.queue.name = s.ledger.queue.name
  stopped : s.ledger.queue.stopped = true → t.ledger.queue.stopped = true
  first : ∀ caller, s.first = some caller → t.first = some caller
  outcome : ∀ result, s.outcome = some result → t.outcome = some result
  signalled : s.signalled = true → t.signalled = true
  handed : s.ledger.handed <+: t.ledger.handed
  /-- After the signal no message becomes due, and none that is due is lost. -/
  due : s.signalled = true → t.ledger.handed ++ t.due = s.ledger.handed ++ s.due
  /-- Without a worker nothing happens to messages. -/
  gone : s.ledger.queue.worker ≠ .alive → t.ledger.queue.worker = s.ledger.queue.worker ∧
    t.ledger.queue.waiting = s.ledger.queue.waiting ∧ t.ledger.accepted = s.ledger.accepted ∧
    t.ledger.handed = s.ledger.handed ∧ t.ledger.consumed = s.ledger.consumed

variable {s t u : Service}

theorem Tidy.onward_refl (h : s.Tidy) : s.Onward s where
  tidy := h
  name := rfl
  stopped := id
  first _ := id
  outcome _ := id
  signalled := id
  handed := List.prefix_rfl
  due _ := rfl
  gone _ := ⟨rfl, rfl, rfl, rfl, rfl⟩

theorem Onward.trans (h : s.Onward t) (h' : t.Onward u) : s.Onward u where
  tidy := h'.tidy
  name := h'.name.trans h.name
  stopped := h'.stopped ∘ h.stopped
  first caller := h'.first caller ∘ h.first caller
  outcome result := h'.outcome result ∘ h.outcome result
  signalled := h'.signalled ∘ h.signalled
  handed := h.handed.trans h'.handed
  due hsignalled := (h'.due (h.signalled hsignalled)).trans (h.due hsignalled)
  gone hgone := by
    obtain ⟨hworker, hwaiting, haccepted, hhanded, hconsumed⟩ := h.gone hgone
    obtain ⟨hworker', hwaiting', haccepted', hhanded', hconsumed'⟩ := h'.gone (hworker ▸ hgone)
    exact ⟨hworker'.trans hworker, hwaiting'.trans hwaiting, haccepted'.trans haccepted,
      hhanded'.trans hhanded, hconsumed'.trans hconsumed⟩

/-- The calls to stop the queue are where they were. -/
structure LeavesCalls (s t : Service) : Prop where
  name : t.ledger.queue.name = s.ledger.queue.name
  stopped : t.ledger.queue.stopped = s.ledger.queue.stopped
  first : t.first = s.first
  outcome : t.outcome = s.outcome
  signalled : t.signalled = s.signalled

/-- What puts and the worker do goes on from what was, if no message is lost. -/
theorem Tidy.onward (h : t.Tidy) (hcalls : s.LeavesCalls t)
    (hhanded : s.ledger.handed <+: t.ledger.handed)
    (hdue : s.signalled = true → t.ledger.handed ++ t.due = s.ledger.handed ++ s.due)
    (hgone : s.ledger.queue.worker ≠ .alive → t.ledger.queue.worker = s.ledger.queue.worker ∧
      t.ledger.queue.waiting = s.ledger.queue.waiting ∧ t.ledger.accepted = s.ledger.accepted ∧
      t.ledger.handed = s.ledger.handed ∧ t.ledger.consumed = s.ledger.consumed) :
    s.Onward t where
  tidy := h
  name := hcalls.name
  stopped := hcalls.stopped.trans
  first _ := hcalls.first.trans
  outcome _ := hcalls.outcome.trans
  signalled := hcalls.signalled.trans
  handed := hhanded
  due := hdue
  gone := hgone

/-! ## Act by act -/

section Step

variable (h : s.Tidy)
include h

/-- Who has no message handles none. -/
theorem Tidy.idle (hhand : s.ledger.queue.inHand = none) : s.ledger.queue.handling = false := by
  cases hbusy : s.ledger.queue.handling with
  | false => rfl
  | true =>
    have hsome := h.busy hbusy
    rw [hhand] at hsome
    cases hsome

/-- While the flag is down, nobody called. -/
theorem Tidy.uncalled (hopen : s.ledger.queue.stopped = false) :
    s.first = none ∧ s.signalled = false ∧ s.outcome = none := by
  have hfirst : s.first = none := by
    have hflag := h.flag
    rw [hopen] at hflag
    exact Option.not_isSome_iff_eq_none.mp (hflag ▸ Bool.false_ne_true)
  have hsignalled : s.signalled = false := by
    refine Bool.eq_false_iff.mpr fun hsignalled => ?_
    have hsome := h.signalled hsignalled
    rw [hfirst] at hsome
    cases hsome
  refine ⟨hfirst, hsignalled, Option.eq_none_iff_forall_ne_some.mpr fun result hresult => ?_⟩
  exact Bool.false_ne_true (hsignalled.symm.trans (h.outcome result hresult).1)

/-- Who has one in hand is alive, and receives no other. -/
theorem Tidy.busy_hands {m : Message} (hhand : s.ledger.queue.inHand = some m) :
    s.ledger.queue.worker = .alive ∧ s.received = [] ∧ s.cleared = false := by
  refine ⟨Classical.byContradiction fun hgone => ?_, ?_⟩
  · rw [h.gone hgone] at hhand
    cases hhand
  · rcases h.received with hnone | ⟨-, hnone, -⟩
    · exact hnone
    · rw [hnone] at hhand
      cases hhand

/-- While the worker is alive, only a call of its own has returned; so what becomes of the worker
then does not matter to that. -/
theorem Tidy.outcome_of_alive (hworker : s.ledger.queue.worker = .alive) {x : Ledger}
    (result : Except QueueError Unit) (hresult : s.outcome = some result) :
    s.signalled = true ∧ (s.first = some .worker ∧ result = .ok () ∨
      s.first = some .outside ∧ x.queue.worker ≠ .alive ∧ result =
        if x.queue.worker = .crashed then .error (.workerPanicked x.queue.name) else .ok ()) := by
  obtain ⟨hsignalled, houtcome⟩ := h.outcome result hresult
  refine ⟨hsignalled, houtcome.imp id ?_⟩
  rintro ⟨-, hgone, -⟩
  exact absurd hworker hgone

theorem Tidy.put {a : Counter.Act} (ha : a = .count ∨ (∃ m, a = .send m) ∨ a = .uncount) :
    ∃ t, s.counted a = some t ∧ s.Onward t := by
  obtain ⟨d, hstep, hsound⟩ := h.counts.step a
  refine ⟨{ s with toCounter := d }, by rw [counted, hstep, Option.map_some], ?_⟩
  obtain ⟨size, waiting, accepted, sending, failing, rfl, hgone⟩ := Counter.put_cases ha hstep
  have htidy : Tidy { s with toCounter := _ } := ⟨hsound, h.taken, h.handed, h.busy, h.received,
    h.gone, h.ended, h.flag, h.signalled, h.outcome⟩
  exact htidy.onward ⟨rfl, rfl, rfl, rfl, rfl⟩ List.prefix_rfl (fun _ => rfl)
    fun hworker => ⟨rfl, (hgone hworker).1, (hgone hworker).2, rfl, rfl⟩

/-- What the worker receives is not due: it will look at the signal first. -/
theorem Tidy.receive : ∃ t, s.counted .receive = some t ∧ s.Onward t := by
  obtain ⟨d, hstep, hsound⟩ := h.counts.step .receive
  refine ⟨{ s with toCounter := d }, by rw [counted, hstep, Option.map_some], ?_⟩
  unfold Counter.step at hstep
  dsimp only at hstep
  split at hstep
  · rename_i m q hreceived hreceive
    rcases s.ledger.queue.receive?_cases with hnone | ⟨m', rest, hwaiting, hhand, hworker, hsome⟩
    · rw [hnone] at hreceive
      cases hreceive
    · rw [hsome] at hreceive
      cases hreceive
      have hcleared : s.cleared = false := by
        rcases h.received with ⟨-, hcleared⟩ | ⟨-, -, m, hm⟩
        · exact hcleared
        · rw [hreceived] at hm
          cases hm
      obtain rfl := Option.some.inj hstep
      have htidy : Tidy { s with toCounter := _ } := ⟨hsound, h.taken, h.handed, h.busy,
        .inr ⟨hworker, hhand, _, rfl⟩, h.gone, h.ended, h.flag, h.signalled, h.outcome⟩
      refine htidy.onward ⟨rfl, rfl, rfl, rfl, rfl⟩ List.prefix_rfl (fun _ => ?_)
        (absurd hworker)
      unfold due
      dsimp only [Counter.setQueue]
      rw [hcleared, if_neg Bool.false_ne_true, if_neg Bool.false_ne_true]
      rfl
  · obtain rfl := Option.some.inj hstep
    exact h.onward_refl

/-- A worker that was told drops what it received; one that was not goes on with it. -/
theorem Tidy.look : s.Onward s.look := by
  unfold Service.look
  split
  · -- its hands are free, and it has not looked yet
    rename_i hworker hhand hcleared
    split
    · rename_i hsignalled
      refine Tidy.onward ?_ ⟨rfl, rfl, rfl, rfl, rfl⟩ List.prefix_rfl (fun _ => ?_)
        (absurd hworker)
      · exact {
          counts := ⟨by
              have hsize := h.counts.size
              simp only [withQueue, Counter.setQueue, List.length_append, List.length_nil]
              omega, by
              have haccepted := h.counts.accepted
              simp only [withQueue, Counter.setQueue, List.length_append, List.length_nil]
              omega⟩
          taken := h.taken
          handed := h.handed
          busy := h.busy
          received := .inl ⟨rfl, hcleared⟩
          gone := fun _ => hhand
          ended := fun _ => hsignalled
          flag := h.flag
          signalled := h.signalled
          outcome := h.outcome_of_alive hworker }
      · unfold due
        simp [hcleared, withQueue, Counter.setQueue, Ledger.held]
    · rename_i hunsignalled
      refine Tidy.onward { h with received := ?_ } ⟨rfl, rfl, rfl, rfl, rfl⟩ List.prefix_rfl
        (absurd · hunsignalled) (absurd hworker)
      rcases h.received with ⟨hnone, -⟩ | hsome
      · exact .inl ⟨hnone, by simp [hnone]⟩
      · exact .inr hsome
  · exact h.onward_refl

theorem Tidy.countOff : ∃ t, s.countOff = some t ∧ s.Onward t := by
  unfold Service.countOff
  split
  · rename_i m rest hcleared hreceived
    rcases h.received with ⟨hnone, -⟩ | ⟨hworker, hhand, m', hm⟩
    · rw [hnone] at hreceived
      cases hreceived
    · obtain ⟨rfl, rfl⟩ : m = m' ∧ rest = [] := by
        rw [hm] at hreceived
        cases hreceived
        exact ⟨rfl, rfl⟩
      have hsize := h.counts.size
      have haccepted := h.counts.accepted
      rw [hm, List.length_singleton] at hsize haccepted
      have hidle := h.idle hhand
      rw [Queue.uncount?_of_pos (by omega), Option.map_some]
      refine ⟨_, rfl, Tidy.onward ?_ ⟨rfl, rfl, rfl, rfl, rfl⟩ List.prefix_rfl (fun _ => ?_)
        (absurd hworker)⟩
      · exact {
          counts := ⟨by
              simp only [Ledger.add, Queue.grip, List.length_nil]
              omega, by
              simp only [Ledger.add, Queue.grip, List.length_append, List.length_singleton,
                List.length_nil]
              omega⟩
          taken := by
            simpa [hhand, Ledger.add, Queue.grip] using h.taken
          handed := by
            simpa [Ledger.underway, hidle, Ledger.add, Queue.grip] using h.handed
          busy := fun _ => rfl
          received := .inl ⟨rfl, rfl⟩
          gone := absurd hworker
          ended := h.ended
          flag := h.flag
          signalled := h.signalled
          outcome := h.outcome }
      · simp [due, Ledger.held, hcleared, hm, hhand, hidle, Ledger.add, Queue.grip]
  · exact ⟨s, rfl, h.onward_refl⟩

theorem Tidy.hand : ∃ t, s.counted .hand = some t ∧ s.Onward t := by
  obtain ⟨d, hstep, hsound⟩ := h.counts.step .hand
  refine ⟨{ s with toCounter := d }, by rw [counted, hstep, Option.map_some], ?_⟩
  obtain rfl := Option.some.inj hstep
  rcases s.ledger.move_hand with hsame | ⟨m, hhand, hidle, hstart⟩
  · have hs : ({ s with toCounter := { s.toCounter with ledger := s.ledger.move .hand } } :
        Service) = s := by rw [hsame]
    rw [hs]
    exact h.onward_refl
  · obtain ⟨hworker, -, hcleared⟩ := h.busy_hands hhand
    rw [hstart] at hsound ⊢
    refine Tidy.onward ?_ ⟨rfl, rfl, rfl, rfl, rfl⟩ (List.prefix_append _ _) (fun _ => ?_)
      (absurd hworker)
    · exact { h with
        counts := hsound
        handed := by
          simpa [Ledger.underway, hidle, hhand, Queue.start] using h.handed
        busy := fun _ => congrArg Option.isSome hhand }
    · simp [due, Ledger.held, hcleared, hhand, hidle, Queue.start]

theorem Tidy.finish (died : Bool) : s.Onward (s.finish died) := by
  unfold Service.finish
  split
  · exact h.onward_refl
  · rename_i m hhand hbusy hcalling
    obtain ⟨hworker, hreceived, hcleared⟩ := h.busy_hands hhand
    refine Tidy.onward ?_ ⟨rfl, rfl, rfl, rfl, rfl⟩ List.prefix_rfl (fun _ => ?_) (absurd hworker)
    · exact {
        counts := ⟨h.counts.size, h.counts.accepted⟩
        taken := by
          simpa [hhand, Ledger.add, Queue.release] using h.taken
        handed := by
          simpa [Ledger.underway, hhand, hbusy, Ledger.add, Queue.release] using h.handed
        busy := nofun
        received := .inl ⟨hreceived, hcleared⟩
        gone := fun _ => rfl
        ended := fun hended => by
          cases died with
          | true => cases hended
          | false => exact h.ended hended
        flag := h.flag
        signalled := h.signalled
        outcome := h.outcome_of_alive hworker }
    · simp [due, Ledger.held, hcleared, hbusy, Ledger.add, Queue.release]
  · exact h.onward_refl

theorem Tidy.raise (caller : Caller) : s.Onward (s.raise caller) := by
  have hraise (hopen : s.ledger.queue.stopped = false) :
      s.Onward { s.withQueue s.ledger.queue.flag with first := some caller } := by
    obtain ⟨hfirst, -, hnone⟩ := h.uncalled hopen
    exact {
      tidy := { h with
        counts := ⟨h.counts.size, h.counts.accepted⟩
        flag := rfl
        signalled := fun _ => rfl
        outcome := fun result hresult => by
          cases hnone.symm.trans hresult }
      name := rfl
      stopped := fun _ => rfl
      first := fun c hc => by
        rw [hfirst] at hc
        cases hc
      outcome := fun _ => id
      signalled := id
      handed := List.prefix_rfl
      due := fun _ => rfl
      gone := fun _ => ⟨rfl, rfl, rfl, rfl, rfl⟩ }
  unfold Service.raise
  split
  · exact hraise ‹_›
  · exact hraise ‹_›
  · exact h.onward_refl

theorem Tidy.signal : s.Onward s.signal where
  tidy := { h with
    ended := fun hended => h.signalled (h.ended hended)
    signalled := id
    outcome := fun result hresult => ⟨h.signalled (h.outcome result hresult).1,
      (h.outcome result hresult).2⟩ }
  name := rfl
  stopped := id
  first _ := id
  outcome _ := id
  signalled := h.signalled
  handed := List.prefix_rfl
  due _ := rfl
  gone _ := ⟨rfl, rfl, rfl, rfl, rfl⟩

theorem Tidy.join : s.Onward s.join := by
  have hjoin {result : Except QueueError Unit} (hsignalled : s.signalled = true)
      (hnone : s.outcome = none) (hresult : s.first = some .worker ∧ result = .ok () ∨
        s.first = some .outside ∧ s.ledger.queue.worker ≠ .alive ∧ result =
          if s.ledger.queue.worker = .crashed then .error (.workerPanicked s.ledger.queue.name)
          else .ok ()) : s.Onward { s with outcome := some result } := {
    tidy := { h with
      outcome := fun result' hsome => by
        obtain rfl := Option.some.inj hsome
        exact ⟨hsignalled, hresult⟩ }
    name := rfl
    stopped := id
    first := fun _ => id
    outcome := fun result' hsome => by
      rw [hnone] at hsome
      cases hsome
    signalled := id
    handed := List.prefix_rfl
    due := fun _ => rfl
    gone := fun _ => ⟨rfl, rfl, rfl, rfl, rfl⟩ }
  unfold Service.join
  split
  · rename_i hsignalled hnone hfirst
    exact hjoin hsignalled hnone (.inl ⟨hfirst, rfl⟩)
  · rename_i hsignalled hnone hfirst hworker
    exact hjoin hsignalled hnone (.inr ⟨hfirst, by simp [hworker], by simp [hworker]⟩)
  · rename_i hsignalled hnone hfirst hworker
    exact hjoin hsignalled hnone (.inr ⟨hfirst, by simp [hworker], by simp [hworker]⟩)
  · exact h.onward_refl

/-- **One act** counts nothing off at zero, and leaves every message and every call in one place. -/
theorem Tidy.step (a : Act) : ∃ t, s.step a = some t ∧ s.Onward t := by
  cases a with
  | count => exact h.put (.inl rfl)
  | send m => exact h.put (.inr (.inl ⟨m, rfl⟩))
  | uncount => exact h.put (.inr (.inr rfl))
  | receive => exact h.receive
  | look => exact ⟨_, rfl, h.look⟩
  | countOff => exact h.countOff
  | hand => exact h.hand
  | finish died => exact ⟨_, rfl, h.finish died⟩
  | raise caller => exact ⟨_, rfl, h.raise caller⟩
  | signal => exact ⟨_, rfl, h.signal⟩
  | join => exact ⟨_, rfl, h.join⟩

/-- And so do any number of them, in whatever order. -/
theorem Tidy.run (acts : List Act) : ∃ t, s.run acts = some t ∧ s.Onward t := by
  induction acts generalizing s with
  | nil => exact ⟨s, rfl, h.onward_refl⟩
  | cons a acts ih =>
    obtain ⟨t, hstep, hnext⟩ := h.step a
    obtain ⟨u, hrun, hlater⟩ := ih hnext.tidy
    exact ⟨u, (run_cons hstep acts).trans hrun, hnext.trans hlater⟩

end Step

end Service

end UseCaseEngine
