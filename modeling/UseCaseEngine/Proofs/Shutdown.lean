import UseCaseEngine.Proofs.Service

/-!
# How a queue ends

What comes of a queue once somebody called `stop`, or once its worker died, whatever the puts, the
worker and further calls to stop are in the middle of (`Service`).

* From when the flag is up, puts that begin are refused, and calls to stop come to nothing.
* From when the worker was signalled, it handles what was due already and nothing else. Between the
  two the worker goes on as if nothing had happened: `handed_while_stopping`.
* The call that raised the flag returns when the worker was signalled, and, unless the worker itself
  made it, when the worker is gone. What it returns tells whether the worker died.

The queues of a world (`Queue.stop`) are stopped by one party at a time; what they do is what some
acts of a service come to (`Service.Mirrors`).

* `Service.Onward.barred`, `Service.Tidy.shut`, `Service.Onward.bereft`: after the flag, after the
  signal, and after the worker's death.
* `Service.Tidy.closes`: a call that was made can return, and what was due is handled then.
* `Service.Tidy.answers`: what calls to stop return.
* `Service.Mirrors.move`: **a move of a queue** is acts of a service.
* **`shutdown`**: all of this, also for the queues of a world.
-/

namespace UseCaseEngine

variable {S : Signature}

namespace Service

variable {s t : Service}

/-! ## What calls return -/

/-- What calls to stop a queue return. -/
structure Answers (s : Service) : Prop where
  /-- The flag is up once somebody called. -/
  begun : s.ledger.queue.stopped = s.first.isSome
  /-- The first call says that the worker died if it was made from outside, and it did die. -/
  panicked : ∀ e, s.outcome = some (.error e) ↔
    s.first = some .outside ∧ s.outcome.isSome = true ∧ s.ledger.queue.worker = .crashed ∧
      e = .workerPanicked s.ledger.queue.name
  /-- When it returns, the worker was signalled, -/
  signalled : s.outcome.isSome = true → s.signalled = true
  /-- and whoever is not the worker has waited for the worker's end. -/
  outside : s.first = some .outside → s.outcome.isSome = true →
    s.ledger.queue.worker ≠ .alive ∧ s.due = [] ∧ s.ledger.consumed = s.ledger.taken
  /-- It returns to the worker at once, and to others once the worker is gone. -/
  joins : s.signalled = true → (s.first = some .worker ∨ s.ledger.queue.worker ≠ .alive) →
    s.join.outcome.isSome = true
  /-- Later calls return at once, and do nothing. -/
  later : s.ledger.queue.stopped = true → ∀ caller,
    s.step (.raise caller) = some s ∧ s.answer? (.raise caller) = some (.ok ())

/-- A worker that is gone left nothing that is due. -/
theorem Tidy.due_of_gone (h : s.Tidy) (hgone : s.ledger.queue.worker ≠ .alive) :
    s.due = [] ∧ s.ledger.consumed = s.ledger.handed ∧ s.ledger.consumed = s.ledger.taken := by
  have hhand := h.gone hgone
  have hcleared : s.cleared = false := by
    rcases h.received with ⟨-, hcleared⟩ | ⟨halive, -⟩
    · exact hcleared
    · exact absurd halive hgone
  refine ⟨?_, ?_, ?_⟩
  · simp [due, hcleared, Ledger.held, hhand]
  · rw [h.handed, Ledger.underway, h.idle hhand]
    simp
  · rw [h.taken, hhand]
    simp

/-- A worker holds one message at most. -/
theorem Tidy.length_due_le (h : s.Tidy) : s.due.length ≤ 1 := by
  unfold due Ledger.held
  rcases h.received with ⟨hreceived, hcleared⟩ | ⟨-, hhand, m, hreceived⟩
  · rw [hcleared]
    cases s.ledger.queue.handling <;> cases s.ledger.queue.inHand <;> simp
  · rw [hreceived, hhand]
    cases s.cleared <;> cases s.ledger.queue.handling <;> simp

theorem Tidy.answers (h : s.Tidy) : s.Answers where
  begun := h.flag
  panicked e := by
    constructor
    · intro houtcome
      obtain ⟨-, ⟨-, hok⟩ | ⟨hfirst, -, hresult⟩⟩ := h.outcome _ houtcome
      · cases hok
      · split at hresult
        · rename_i hcrashed
          exact ⟨hfirst, by rw [houtcome]; rfl, hcrashed, Except.error.inj hresult⟩
        · cases hresult
    · rintro ⟨hfirst, hsome, hcrashed, rfl⟩
      obtain ⟨result, houtcome⟩ := Option.isSome_iff_exists.mp hsome
      obtain ⟨-, ⟨hworker, -⟩ | ⟨-, -, hresult⟩⟩ := h.outcome result houtcome
      · rw [hfirst] at hworker
        cases hworker
      · rw [houtcome, hresult, if_pos hcrashed]
  signalled hsome := by
    obtain ⟨result, houtcome⟩ := Option.isSome_iff_exists.mp hsome
    exact (h.outcome result houtcome).1
  outside hfirst hsome := by
    obtain ⟨result, houtcome⟩ := Option.isSome_iff_exists.mp hsome
    obtain ⟨-, ⟨hworker, -⟩ | ⟨-, hgone, -⟩⟩ := h.outcome result houtcome
    · rw [hfirst] at hworker
      cases hworker
    · obtain ⟨hdue, -, hconsumed⟩ := h.due_of_gone hgone
      exact ⟨hgone, hdue, hconsumed⟩
  joins hsignalled hready := by
    obtain ⟨caller, hfirst⟩ := Option.isSome_iff_exists.mp (h.signalled hsignalled)
    unfold Service.join
    cases houtcome : s.outcome with
    | some result => simp [houtcome]
    | none =>
      rw [hsignalled, hfirst]
      cases caller with
      | worker => rfl
      | outside =>
        rw [hfirst] at hready
        cases hworker : s.ledger.queue.worker <;> simp_all
  later hstopped caller := by
    simp [Service.step, Service.raise, answer?, hstopped]

/-! ## After the flag -/

/-- What a queue comes to after its flag went up. -/
structure Barred (s t : Service) : Prop where
  stopped : t.ledger.queue.stopped = true
  /-- A put that begins now is refused, and changes nothing. -/
  refuses : t.step .count = some t ∧
    t.answer? .count = some (.error (.stopped s.ledger.queue.name))

theorem Onward.barred (h : s.Onward t) (hstopped : s.ledger.queue.stopped = true) :
    s.Barred t := by
  have hstopped' := h.stopped hstopped
  refine ⟨hstopped', ?_, ?_⟩
  · simp [Service.step, counted, Counter.step, hstopped']
  · simp [answer?, hstopped', h.name]

/-! ## After the signal -/

/-- The call that raised the flag signals, and the worker does what it has to do yet: it looks at
the signal if it can, and else goes on with the message that it has. -/
def closing (died : Bool) : List Act :=
  [.signal, .join, .look, .countOff, .hand, .finish died, .look, .join]

/-- What a queue comes to after its worker was signalled. -/
structure Shut (s t : Service) : Prop where
  signalled : t.signalled = true
  single : s.due.length ≤ 1
  /-- Its worker starts to handle no message but the one that was due already, -/
  handed : t.ledger.handed = s.ledger.handed ∨ t.ledger.handed = s.ledger.handed ++ s.due
  /-- with which it is done when it is gone. -/
  finished : t.ledger.queue.worker ≠ .alive →
    t.ledger.consumed = t.ledger.handed ∧ t.ledger.handed = s.ledger.handed ++ s.due

theorem Tidy.shut (h : s.Tidy) (hsignalled : s.signalled = true) (hlater : s.Onward t) :
    s.Shut t := by
  have hdue := hlater.due hsignalled
  have hsingle := h.length_due_le
  refine ⟨hlater.signalled hsignalled, hsingle, ?_, fun hgone => ?_⟩
  · have hlength := congrArg List.length hdue
    simp only [List.length_append] at hlength
    by_cases hdone : t.due = []
    · right
      rw [← hdue, hdone, List.append_nil]
    · left
      have hpos : 0 < t.due.length := List.length_pos_iff.mpr hdone
      have hgrows := hlater.handed.length_le
      exact (List.append_inj hdue (by omega)).1
  · obtain ⟨hnone, hconsumed, -⟩ := hlater.tidy.due_of_gone hgone
    rw [hnone, List.append_nil] at hdue
    exact ⟨hconsumed, hdue⟩

/-- A worker that is gone stays so. -/
theorem Tidy.run_gone (h : s.Tidy) (hgone : s.ledger.queue.worker ≠ .alive) (acts : List Act) :
    ∃ t, s.run acts = some t ∧ t.ledger.queue.worker ≠ .alive := by
  obtain ⟨t, hrun, hlater⟩ := h.run acts
  exact ⟨t, hrun, (hlater.gone hgone).1 ▸ hgone⟩

section Closing

variable (hsignalled : s.signalled = true) (hfree : s.first = some .worker → s.outcome ≠ none)
include hsignalled

/-- With free hands, a worker that was signalled ends. -/
theorem look_of_free (hhand : s.ledger.queue.inHand = none) (hcleared : s.cleared = false) :
    s.look.ledger.queue.worker ≠ .alive := by
  cases hworker : s.ledger.queue.worker <;>
    simp [Service.look, hworker, hhand, hcleared, hsignalled, withQueue, Counter.setQueue]

include hfree

/-- With a message in hand, it handles that one first. -/
theorem run_of_inHand {m : Message} (hhand : s.ledger.queue.inHand = some m)
    (hcleared : s.cleared = false) (died : Bool) :
    ∃ t, s.run [.hand, .finish died, .look] = some t ∧ t.ledger.queue.worker ≠ .alive := by
  obtain ⟨t, hstep, hhand', hbusy, hcleared', hsignalled', hfree'⟩ :
      ∃ t, s.step .hand = some t ∧ t.ledger.queue.inHand = some m ∧
        t.ledger.queue.handling = true ∧ t.cleared = false ∧ t.signalled = true ∧
        (t.first = some .worker → t.outcome ≠ none) := by
    refine ⟨_, rfl, ?_⟩
    cases hbusy : s.ledger.queue.handling <;>
      simp [Ledger.move, hhand, hbusy, Queue.start, Ledger.add, hcleared, hsignalled] <;>
      exact hfree
  refine ⟨(t.finish died).look, ?_, ?_⟩
  · rw [run_cons hstep]
    rfl
  · rw [finish_of_handling hhand' hbusy hfree']
    exact look_of_free hsignalled' rfl hcleared'

/-- **A worker that was signalled ends or dies**, when it has handled what was due. -/
theorem Tidy.fades (h : s.Tidy) (died : Bool) :
    ∃ t, s.run [.look, .countOff, .hand, .finish died, .look] = some t ∧
      t.ledger.queue.worker ≠ .alive := by
  cases hcleared : s.cleared with
  | true =>
    -- it looked at the signal already, and goes on to count the message off
    obtain ⟨-, hfalse⟩ | ⟨-, hhand, m, hreceived⟩ := h.received
    · rw [hcleared] at hfalse
      cases hfalse
    have hlook : s.look = s := by simp [Service.look, hcleared]
    have hsize := h.counts.size
    rw [hreceived, List.length_singleton] at hsize
    have hoff := Queue.uncount?_of_pos (q := s.ledger.queue) (by omega)
    have hcountOff : s.step .countOff = some { s with
        ledger := ({ s.ledger with
          queue := ({ s.ledger.queue with size := s.ledger.queue.size - 1 } : Queue).grip m }
            : Ledger).add m .taken
        received := []
        cleared := false } := by
      unfold Service.step Service.countOff
      simp only [hcleared, hreceived, hoff, Option.map_some]
    rw [run_cons (a := .look) (congrArg some hlook), run_cons hcountOff]
    refine run_of_inHand (m := m) ?_ ?_ rfl rfl died
    · exact hsignalled
    · exact hfree
  | false =>
    cases hhand : s.ledger.queue.inHand with
    | none =>
      obtain ⟨t, hrun, hgone⟩ := h.look.tidy.run_gone (look_of_free hsignalled hhand hcleared)
        [.countOff, .hand, .finish died, .look]
      exact ⟨t, hrun, hgone⟩
    | some m =>
      have hlook : s.look = s := by simp [Service.look, hhand]
      have hoff : s.countOff = some s := by simp [Service.countOff, hcleared]
      rw [run_cons (a := .look) (congrArg some hlook), run_cons (a := .countOff) hoff]
      exact run_of_inHand hsignalled hfree hhand hcleared died

end Closing

/-- **A call that was made can return**, when the worker has handled what was due. -/
theorem Tidy.closes (h : s.Tidy) (hfirst : s.first.isSome = true) (died : Bool) :
    ∃ t, s.run (closing died) = some t ∧ t.outcome.isSome = true ∧
      t.ledger.queue.worker ≠ .alive := by
  obtain ⟨caller, hcaller⟩ := Option.isSome_iff_exists.mp hfirst
  have hsignal := h.signal
  have hjoin := hsignal.tidy.join
  have hsignalled : s.signal.join.signalled = true := hjoin.signalled hfirst
  have hfree : s.signal.join.first = some .worker → s.signal.join.outcome ≠ none := by
    intro hworker
    rw [hjoin.first caller hcaller] at hworker
    obtain rfl := Option.some.inj hworker
    exact Option.isSome_iff_ne_none.mp (hsignal.tidy.answers.joins hfirst (.inl hcaller))
  obtain ⟨t, hrun, hgone⟩ := hjoin.tidy.fades hsignalled hfree died
  obtain ⟨t', hrun', hlater⟩ := hjoin.tidy.run [.look, .countOff, .hand, .finish died, .look]
  obtain rfl : t' = t := Option.some.inj (hrun'.symm.trans hrun)
  have hend := hlater.tidy.join
  refine ⟨t'.join, ?_, hlater.tidy.answers.joins (hlater.signalled hsignalled) (.inr hgone),
    (hend.gone hgone).1 ▸ hgone⟩
  rw [closing, run_cons (a := .signal) rfl, run_cons (a := .join) rfl]
  change s.signal.join.run ([.look, .countOff, .hand, .finish died, .look] ++ [.join]) = _
  rw [run_append, hrun]
  rfl

/-! ## After the worker's death -/

/-- Only a call to stop raises the flag. -/
theorem first_step {a : Act} (hstep : s.step a = some t) (ha : ∀ caller, a ≠ .raise caller) :
    t.first = s.first := by
  have hcounted {b : Counter.Act} (h : s.counted b = some t) : t.first = s.first := by
    obtain ⟨d, -, rfl⟩ := Option.map_eq_some_iff.mp h
    rfl
  cases a with
  | count | send | uncount | receive | hand => exact hcounted hstep
  | raise caller => exact absurd rfl (ha caller)
  | look =>
    obtain rfl := Option.some.inj hstep
    unfold Service.look
    split
    · split <;> rfl
    · rfl
  | countOff =>
    change s.countOff = some t at hstep
    unfold Service.countOff at hstep
    split at hstep
    · obtain ⟨q, -, rfl⟩ := Option.map_eq_some_iff.mp hstep
      rfl
    · rw [Option.some.inj hstep]
  | finish died =>
    obtain rfl := Option.some.inj hstep
    unfold Service.finish
    split <;> rfl
  | signal => rw [← Option.some.inj hstep, Service.signal]
  | join =>
    obtain rfl := Option.some.inj hstep
    unfold Service.join
    split <;> rfl

/-- What a queue comes to after its worker died. -/
structure Bereft (s t : Service) : Prop where
  crashed : t.ledger.queue.worker = .crashed
  /-- No message is handled any more, or accepted. -/
  handed : t.ledger.handed = s.ledger.handed
  consumed : t.ledger.consumed = s.ledger.consumed
  accepted : t.ledger.accepted = s.ledger.accepted
  waiting : t.ledger.queue.waiting = s.ledger.queue.waiting
  /-- A put that begins while the flag is down is refused when it cannot send, and then it has
  changed nothing. -/
  refuses : t.ledger.queue.stopped = false → ∀ m, ∃ u v,
    t.step .count = some u ∧ t.answer? .count = none ∧
    u.step (.send m) = some v ∧ u.answer? (.send m) = none ∧
    v.step .uncount = some t ∧ v.answer? .uncount = some (.error (.stopped s.ledger.queue.name))
  /-- The flag is up only once somebody calls. -/
  unstopped : ∀ a u, (∀ caller, a ≠ .raise caller) → t.step a = some u →
    u.ledger.queue.stopped = t.ledger.queue.stopped

theorem Onward.bereft (hlater : s.Onward t) (hcrashed : s.ledger.queue.worker = .crashed) :
    s.Bereft t := by
  obtain ⟨hworker, hwaiting, haccepted, hhanded, hconsumed⟩ := hlater.gone (hcrashed ▸ nofun)
  rw [hcrashed] at hworker
  refine ⟨hworker, hhanded, hconsumed, haccepted, hwaiting, fun hopen m => ?_,
    fun a u ha hstep => ?_⟩
  · refine ⟨{ t.withQueue t.ledger.queue.count with sending := t.sending + 1 },
      { t.withQueue t.ledger.queue.count with failing := t.failing + 1 }, ?_, ?_, ?_, ?_, ?_, ?_⟩
    · simp [Service.step, counted, Counter.step, hopen, withQueue]
    · simp [answer?, hopen]
    · simp [Service.step, counted, Counter.step, withQueue, Counter.setQueue, Queue.send?,
        Queue.count, hworker]
    · simp [answer?, withQueue, Counter.setQueue, Queue.count, hworker]
    · simp [Service.step, counted, Counter.step, withQueue, Counter.setQueue,
        Queue.uncount?_count]
    · simp [answer?, withQueue, Counter.setQueue, Queue.count, hlater.name]
  · obtain ⟨u', hstep', hnext⟩ := hlater.tidy.step a
    obtain rfl := Option.some.inj (hstep'.symm.trans hstep)
    rw [hnext.tidy.flag, hlater.tidy.flag, first_step hstep ha]

/-- What a queue comes to in the end. -/
structure Ends (s t : Service) : Prop where
  barred : s.ledger.queue.stopped = true → s.Barred t
  shut : s.signalled = true → s.Shut t
  bereft : s.ledger.queue.worker = .crashed → s.Bereft t
  /-- Who called first, and what the call came to, is settled. -/
  first : ∀ caller, s.first = some caller → t.first = some caller
  outcome : ∀ result, s.outcome = some result → t.outcome = some result

theorem Tidy.ends (h : s.Tidy) (hlater : s.Onward t) : s.Ends t where
  barred hstopped := hlater.barred hstopped
  shut hsignalled := h.shut hsignalled hlater
  bereft hcrashed := hlater.bereft hcrashed
  first := hlater.first
  outcome := hlater.outcome

/-! ## One party at a time -/

/-- The queue of a ledger in service, with nobody in the middle of a put or a receipt. -/
def serial (x : Ledger) (worker : Worker) (first : Option Caller)
    (outcome : Option (Except QueueError Unit)) : Service where
  ledger := { x with queue := { x.queue with worker } }
  signalled := x.queue.stopped
  first
  outcome

/-- The ledger tells what became of the queue in service. It takes a worker that was told to stop
for ended while it has a message in hand that it has yet to handle. -/
inductive Mirrors (x : Ledger) : Service → Prop
  | serial (worker : Worker) (first : Option Caller)
      (outcome : Option (Except QueueError Unit))
      (hworker : worker = x.queue.worker ∨ worker = .alive ∧ x.queue.worker = .ended ∧
        x.queue.stopped = true ∧ x.queue.inHand.isSome = true)
      (hfree : first = some .worker → outcome ≠ none) :
      Mirrors x (serial x worker first outcome)

theorem mirrors_fresh (name : String) : (fresh name).Mirrors (Ledger.fresh name) :=
  .serial .alive none none (.inl rfl) nofun

variable {x : Ledger}

/-- What is put one at a time is counted and sent, or refused. -/
theorem Mirrors.put (hs : s.Mirrors x) (m : Message) :
    ∃ acts t, s.run acts = some t ∧ t.Mirrors (x.move (.put m)) := by
  by_cases hclosed : x.queue.Closed
  · refine ⟨[], s, rfl, ?_⟩
    simpa only [Ledger.move, Queue.put_of_closed hclosed] using hs
  · obtain ⟨hopen, halive⟩ := x.queue.not_closed_iff.mp hclosed
    have hput := (x.move_put m).resolve_right fun hrefused =>
      hclosed (Queue.closed_of_error hrefused.2)
    obtain ⟨worker, first, outcome, hworker, hfree⟩ := hs
    obtain rfl : worker = .alive := hworker.elim (·.trans halive) And.left
    rw [hput]
    refine ⟨[.count, .send m], _, ?_, .serial .alive first outcome (.inl halive.symm) hfree⟩
    simp [Service.run, Service.step, counted, Counter.step, Service.serial, hopen, Counter.setQueue,
      Queue.count, Queue.send?, Ledger.add]

/-- What is taken out one at a time is received, and counted off since nobody signalled. -/
theorem Mirrors.take (hs : s.Mirrors x) (h : s.Tidy) :
    ∃ acts t, s.run acts = some t ∧ t.Mirrors (x.move .take) := by
  rcases x.move_take with hsame | ⟨m, rest, hwaiting, hhand, hopen, halive, htake⟩
  · exact ⟨[], s, rfl, hsame.symm ▸ hs⟩
  · have hsize := h.counts.size
    obtain ⟨worker, first, outcome, hworker, hfree⟩ := hs
    obtain rfl : worker = .alive := hworker.elim (·.trans halive) And.left
    have hpos : x.queue.size = rest.length + 1 := by simpa [Service.serial, hwaiting] using hsize
    rw [htake]
    refine ⟨[.receive, .look, .countOff], _, ?_,
      .serial .alive first outcome (.inl halive.symm) hfree⟩
    simp [Service.run, Service.step, counted, Counter.step, Service.serial, hopen, Counter.setQueue,
      Queue.receive?, hhand, hwaiting, Service.look, Service.countOff, Queue.uncount?, hpos,
      Queue.grip, Ledger.add]

theorem Mirrors.hand (hs : s.Mirrors x) :
    ∃ acts t, s.run acts = some t ∧ t.Mirrors (x.move .hand) := by
  rcases x.move_hand with hsame | ⟨m, hhand, hidle, hstart⟩
  · exact ⟨[], s, rfl, hsame.symm ▸ hs⟩
  · obtain ⟨worker, first, outcome, hworker, hfree⟩ := hs
    rw [hstart]
    refine ⟨[.hand], _, ?_, .serial worker first outcome hworker hfree⟩
    simp [Service.run, Service.step, counted, Counter.step, Service.serial, Ledger.move, hhand,
      hidle, Queue.start, Ledger.add]

/-- A worker that was told to stop looks at the signal when it is done. -/
theorem Mirrors.finish (hs : s.Mirrors x) (h : s.Tidy) (died : Bool) :
    ∃ acts t, s.run acts = some t ∧ t.Mirrors (x.move (.finish died)) := by
  rcases x.move_finish died with hsame | ⟨m, hhand, hbusy, hfinish⟩
  · exact ⟨[], s, rfl, hsame.symm ▸ hs⟩
  · obtain ⟨worker, first, outcome, hworker, hfree⟩ := hs
    obtain ⟨rfl, -, -⟩ := h.busy_hands hhand
    rw [hfinish]
    cases died with
    | true =>
      refine ⟨[.finish true], _, ?_, .serial .crashed first outcome (.inl rfl) hfree⟩
      rw [run_cons (a := .finish true) (congrArg some (finish_of_handling hhand hbusy hfree true))]
      rfl
    | false =>
      cases hstopped : x.queue.stopped with
      | false =>
        have halive : Worker.alive = x.queue.worker := by
          rcases hworker with hsame | ⟨-, -, htold, -⟩
          · exact hsame
          · rw [hstopped] at htold
            cases htold
        refine ⟨[.finish false], _, ?_, .serial .alive first outcome (.inl ?_) hfree⟩
        · rw [run_cons (a := .finish false)
            (congrArg some (finish_of_handling hhand hbusy hfree false))]
          simp [Service.run, Service.serial, Queue.release, Queue.finish, Ledger.add]
        · simp [Queue.finish, hstopped, ← halive]
      | true =>
        refine ⟨[.finish false, .look], _, ?_, .serial .ended first outcome (.inl ?_) hfree⟩
        · rw [run_cons (a := .finish false)
            (congrArg some (finish_of_handling hhand hbusy hfree false))]
          simp [Service.run, Service.step, Service.look, Service.serial, Queue.release,
            Queue.finish, Ledger.add, hstopped, withQueue, Counter.setQueue]
        · simp [Queue.finish, hstopped]

section Stop

variable (hopen : x.queue.stopped = false)
include hopen

/-- A worker that handles a message stops its queue, and is answered at once. -/
theorem run_stop_of_handling (hbusy : x.queue.handling = true) :
    (Service.serial x x.queue.worker none none).run [.raise .worker, .signal, .join] =
      some (Service.serial (x.move .stop) x.queue.worker (some .worker) (some x.queue.stop.2)) := by
  simp [Service.run, Service.step, Service.raise, Service.signal, Service.join, Service.serial,
    withQueue, Counter.setQueue, Queue.flag, Ledger.move, Queue.stop, hopen, hbusy]

/-- Whoever stops a queue whose worker died is told so. -/
theorem run_stop_of_crashed (hidle : x.queue.handling = false)
    (hworker : x.queue.worker = .crashed) :
    (Service.serial x .crashed none none).run [.raise .outside, .signal, .join] =
      some (Service.serial (x.move .stop) .crashed (some .outside) (some x.queue.stop.2)) := by
  simp [Service.run, Service.step, Service.raise, Service.signal, Service.join, Service.serial,
    withQueue, Counter.setQueue, Queue.flag, Ledger.move, Queue.stop, hopen, hidle, hworker]

/-- A worker with free hands ends when it looks at the signal. -/
theorem run_stop_of_free (hidle : x.queue.handling = false) (hworker : x.queue.worker = .alive)
    (hhand : x.queue.inHand = none) :
    (Service.serial x .alive none none).run [.raise .outside, .signal, .look, .join] =
      some (Service.serial (x.move .stop) .ended (some .outside) (some x.queue.stop.2)) := by
  simp [Service.run, Service.step, Service.raise, Service.signal, Service.look, Service.join,
    Service.serial, withQueue, Counter.setQueue, Queue.flag, Ledger.move, Queue.stop, hopen, hidle,
    hworker, hhand]

/-- While the worker has a message in hand, whoever stops the queue has to wait. -/
theorem run_stop_of_alive (hidle : x.queue.handling = false) (hworker : x.queue.worker = .alive) :
    (Service.serial x .alive none none).run [.raise .outside, .signal] =
      some (Service.serial (x.move .stop) .alive (some .outside) none) := by
  simp [Service.run, Service.step, Service.raise, Service.signal, Service.serial, withQueue,
    Counter.setQueue, Queue.flag, Ledger.move, Queue.stop, hopen, hidle, hworker]

end Stop

/-- A queue is stopped by its worker if that handles a message, and else from outside. -/
theorem Mirrors.stop (hs : s.Mirrors x) (h : s.Tidy) :
    ∃ acts t, s.run acts = some t ∧ t.Mirrors (x.move .stop) ∧
      (x.queue.stopped = false → (x.queue.inHand = none ∨ x.queue.handling = true) →
        t.outcome = some x.queue.stop.2) := by
  cases hstopped : x.queue.stopped with
  | true =>
    refine ⟨[], s, rfl, ?_, fun hopen => absurd hopen.symm Bool.false_ne_true⟩
    simpa only [Ledger.move, Queue.stop_of_stopped hstopped] using hs
  | false =>
    obtain ⟨worker, first, outcome, hworker, hfree⟩ := hs
    obtain rfl : worker = x.queue.worker := by
      rcases hworker with hsame | ⟨-, -, htold, -⟩
      · exact hsame
      · rw [hstopped] at htold
        cases htold
    obtain ⟨rfl, -, rfl⟩ : first = none ∧ _ ∧ outcome = none := h.uncalled hstopped
    have hwaits : some Caller.outside = some Caller.worker →
        ∀ result : Option (Except QueueError Unit), result ≠ none := fun hcaller => by
      cases hcaller
    cases hbusy : x.queue.handling with
    | true =>
      refine ⟨_, _, run_stop_of_handling hstopped hbusy,
        .serial x.queue.worker _ _ (.inl ?_) fun _ => Option.some_ne_none _, fun _ _ => rfl⟩
      simp [Ledger.move, Queue.stop, hstopped, hbusy]
    | false =>
      cases hx : x.queue.worker with
      | ended => exact absurd (hstopped ▸ h.ended hx) Bool.false_ne_true
      | crashed =>
        refine ⟨_, _, run_stop_of_crashed hstopped hbusy hx,
          .serial .crashed _ _ (.inl ?_) (hwaits · _), fun _ _ => rfl⟩
        simp [Ledger.move, Queue.stop, hstopped, hbusy, hx]
      | alive =>
        have hended : (x.move .stop).queue.worker = .ended := by
          simp [Ledger.move, Queue.stop, hstopped, hbusy, hx]
        cases hhand : x.queue.inHand with
        | none =>
          exact ⟨_, _, run_stop_of_free hstopped hbusy hx hhand,
            .serial .ended _ _ (.inl hended.symm) (hwaits · _), fun _ _ => rfl⟩
        | some m =>
          -- it will handle the message first, while the ledger takes it for ended
          refine ⟨_, _, run_stop_of_alive hstopped hbusy hx, .serial .alive _ _
            (.inr ⟨rfl, hended, x.queue.stop_stopped, ?_⟩) (hwaits · _), fun _ hready => ?_⟩
          · rw [x.move_stop]
            exact congrArg Option.isSome hhand
          · rcases hready with hnone | htrue
            · cases hnone
            · cases htrue

/-- **One move of a queue** is acts of a service. -/
theorem Mirrors.move (hs : s.Mirrors x) (h : s.Tidy) (a : Queue.Move) :
    ∃ acts t, s.run acts = some t ∧ t.Mirrors (x.move a) := by
  cases a with
  | put m => exact hs.put m
  | take => exact hs.take h
  | hand => exact hs.hand
  | finish died => exact hs.finish h died
  | stop =>
    obtain ⟨acts, t, hrun, ht, -⟩ := hs.stop h
    exact ⟨acts, t, hrun, ht⟩

/-- And so are any number of moves. -/
theorem Mirrors.run (hs : s.Mirrors x) (h : s.Tidy) (moves : List Queue.Move) :
    ∃ acts t, s.run acts = some t ∧ t.Mirrors (x.run moves) := by
  induction moves generalizing s x with
  | nil => exact ⟨[], s, rfl, hs⟩
  | cons a moves ih =>
    obtain ⟨acts, t, hrun, ht⟩ := hs.move h a
    obtain ⟨t', hrun', hlater⟩ := h.run acts
    obtain rfl := Option.some.inj (hrun'.symm.trans hrun)
    obtain ⟨more, u, hmore, hu⟩ := ih ht hlater.tidy
    refine ⟨acts ++ more, u, ?_, hu⟩
    rw [run_append, hrun]
    exact hmore

end Service

/-! ## Shutting down -/

section Shutdown

variable (app : Application S) (q : QueueId S)

/-- Code that makes a request goes on with the answer. -/
theorem exec_request_bind (calls : Calls S) {α : Type} (request : Request S)
    (f : request.Answer → Action S α) (w : World S) :
    exec app calls (Action.request request >>= f) w =
      exec app calls (f (perform app calls request w).1) (perform app calls request w).2 := rfl

/-- A queue that is closed refuses what is put, and nothing changes. -/
theorem perform_put_of_closed (calls : Calls S) {w : World S} (h : (w.queue q).Closed)
    (m : Message) :
    perform app calls (.put q m) w = (.error (.stopped (w.queue q).name), w) := by
  unfold perform
  dsimp only
  rw [Queue.put_of_closed h]
  dsimp only
  rw [w.setQueue_queue]

/-- It tells whoever has it handle a message that this could not be delivered, and nothing
changes. -/
theorem exec_toQueue_of_closed (calls : Calls S) {w : World S} (h : (w.queue q).Closed)
    (m : Message) :
    exec app calls (Action.toQueue q m) w =
      (.error (.delivery ("Event queue " ++ (w.queue q).name ++ " is stopped")), w) := by
  unfold Action.toQueue
  refine (exec_request_bind app calls (.put q m) _ w).trans ?_
  rw [perform_put_of_closed app q calls h]
  rfl

/-- **Shutting a queue down**, whatever the puts, the worker and the calls to stop are in the middle
of:

* once the flag is up, it stays up, and puts and stops that begin come to nothing; once the worker
  was signalled as well, as it was when the call that raised the flag returns, it handles what was
  due already and nothing else, and nothing is handled while it counts;
* after the worker's death no message is handled or accepted, though the queue counts as stopped
  only once somebody calls;
* the call that raised the flag can return, and tells of the worker's death if it came from outside
  and the worker is dead when it is joined; all others come to nothing.

What becomes of a queue of a world is what becomes of a queue in service. When such a queue is
stopped while its worker holds no message, or handles one, the call returns as it does there; while
its worker has a message in hand that it has yet to handle, the call in service goes on. A closed
queue of a world, stopped or without a worker, refuses messages, and is as it was. -/
theorem shutdown (name : String) :
    (∀ acts, ∃ s, (Service.fresh name).run acts = some s ∧ s.Answers ∧
      s.ledger.handed <+: s.ledger.taken ∧
      s.ledger.queue.size + s.ledger.taken.length =
        s.ledger.accepted.length + s.sending + s.failing ∧
      (s.first.isSome = true → ∀ died, ∃ t, s.run (Service.closing died) = some t ∧
        t.outcome.isSome = true ∧ t.ledger.queue.worker ≠ .alive) ∧
      ∀ more, ∃ t, s.run more = some t ∧ s.Ends t) ∧
    (∀ w : World S, w.journal = [] → w.queue q = { name } → ∀ before after : List (Operation S),
      ∃ acts s more t, (Service.fresh name).run acts = some s ∧ s.run more = some t ∧
        s.Mirrors ((before.foldl (Operation.apply app) w).ledger q) ∧
        t.Mirrors (((before ++ after).foldl (Operation.apply app) w).ledger q)) ∧
    (∀ acts s x, (Service.fresh name).run acts = some s → s.Mirrors x → ∃ more t,
      s.run more = some t ∧ t.Mirrors (x.move .stop) ∧
      (x.queue.stopped = false → (x.queue.inHand = none ∨ x.queue.handling = true) →
        t.outcome = some x.queue.stop.2)) ∧
    ∀ (calls : Calls S) (w : World S) (m : Message), (w.queue q).Closed →
      perform app calls (.put q m) w = (.error (.stopped (w.queue q).name), w) ∧
      exec app calls (Action.toQueue q m) w =
        (.error (.delivery ("Event queue " ++ (w.queue q).name ++ " is stopped")), w) := by
  have hfresh := Service.tidy_fresh name
  have htidy {acts : List Service.Act} {s : Service} (h : (Service.fresh name).run acts = some s) :
      s.Tidy := by
    obtain ⟨s', hrun, hlater⟩ := hfresh.run acts
    obtain rfl := Option.some.inj (hrun.symm.trans h)
    exact hlater.tidy
  refine ⟨fun acts => ?_, fun w hjournal hqueue before after => ?_, fun acts s x hrun hs =>
    hs.stop (htidy hrun), fun calls w m h => ⟨perform_put_of_closed app q calls h m,
    exec_toQueue_of_closed app q calls h m⟩⟩
  · obtain ⟨s, hrun, hlater⟩ := hfresh.run acts
    have h := hlater.tidy
    have hsize := h.counts.size
    have haccepted := h.counts.accepted
    refine ⟨s, hrun, h.answers, ?_, by omega, fun hfirst died => h.closes hfirst died,
      fun more => ?_⟩
    · rw [h.handed, h.taken, List.prefix_append_right_inj]
      unfold Ledger.underway
      split
      · exact List.prefix_rfl
      · exact List.nil_prefix
    · obtain ⟨t, hmore, hlater'⟩ := h.run more
      exact ⟨t, hmore, h.ends hlater'⟩
  · obtain ⟨moves, hmoves⟩ := exists_moves app q hjournal hqueue before
    obtain ⟨hidle, -⟩ := operations_works app q w before (congrArg Queue.handling hqueue)
    obtain ⟨-, rest, hrest⟩ := operations_works app q _ after hidle
    obtain ⟨acts, s, hrun, hs⟩ := (Service.mirrors_fresh name).run hfresh moves
    obtain ⟨more, t, hmore, ht⟩ := hs.run (htidy hrun) rest
    refine ⟨acts, s, more, t, hrun, hmore, hmoves ▸ hs, ?_⟩
    rw [List.foldl_append, hrest, hmoves]
    exact ht

end Shutdown

/-- Over a parcel the worker of the postroom dies while the postroom is being closed: whoever closes
it learns of it, and the letter behind the parcel stays where it is. A usual day ends with a copy in
the tray, and nobody will deal with it. -/
theorem shutdown_of_postroom :
    (∃ s, (Service.fresh "tray").run [.count, .send Postroom.parcel, .count, .receive, .look,
        .send Postroom.torn, .countOff, .hand, .raise .outside, .signal, .count, .finish true,
        .join] = some s ∧ s.outcome = some (.error (.workerPanicked "tray")) ∧
        s.ledger.queue.waiting = [Postroom.torn]) ∧
    Postroom.start.journal = [] ∧ Postroom.start.queue Postroom.tray = { name := "tray" } ∧
    (∃ acts s more t, (Service.fresh "tray").run acts = some s ∧ s.run more = some t ∧
      s.Mirrors ((Postroom.day.foldl (Operation.apply Postroom.application)
        Postroom.start).ledger Postroom.tray) ∧
      t.Mirrors (((Postroom.day ++ [Operation.take Postroom.tray, .hand Postroom.tray]).foldl
        (Operation.apply Postroom.application) Postroom.start).ledger Postroom.tray)) ∧
    (∃ more t, (Service.fresh "tray").run more = some t ∧
      t.Mirrors ((Ledger.fresh "tray").move .stop) ∧ t.outcome = some (.ok ())) ∧
    exec Postroom.application (call Postroom.application)
        (Action.toQueue Postroom.tray Postroom.torn)
        (Postroom.day.foldl (Operation.apply Postroom.application) Postroom.start) =
      (.error (.delivery "Event queue tray is stopped"),
        Postroom.day.foldl (Operation.apply Postroom.application) Postroom.start) := by
  obtain ⟨hservice, hworld, hstop, hclosed⟩ :=
    shutdown Postroom.application Postroom.tray "tray"
  refine ⟨?_, rfl, rfl, hworld Postroom.start rfl rfl Postroom.day _, ?_, ?_⟩
  · obtain ⟨s, hrun, hanswers, -⟩ := hservice [.count, .send Postroom.parcel, .count, .receive,
      .look, .send Postroom.torn, .countOff, .hand, .raise .outside, .signal, .count,
      .finish true, .join]
    obtain rfl := Option.some.inj hrun
    exact ⟨_, rfl, (hanswers.panicked _).mpr ⟨rfl, rfl, rfl, rfl⟩, rfl⟩
  · obtain ⟨more, t, hrun, ht, houtcome⟩ := hstop [] _ _ rfl (Service.mirrors_fresh "tray")
    exact ⟨more, t, hrun, ht, houtcome rfl (.inl rfl)⟩
  · exact (hclosed _ _ Postroom.torn (.inl (by decide +kernel))).2

/-- Somebody called `stop`, and another call has even returned, when the worker takes out a parcel
that waited and counted, and starts to handle it. And it does not handle it to its end. -/
theorem handed_while_stopping :
    ∃ s t u, (Service.fresh "tray").run [.count, .send Postroom.parcel, .raise .outside] = some s ∧
      s.ledger.queue.stopped = true ∧ s.answer? (.raise .outside) = some (.ok ()) ∧
      s.ledger.queue.waiting = [Postroom.parcel] ∧ s.ledger.queue.size = 1 ∧
      s.ledger.taken = [] ∧
      s.run [.raise .outside, .receive, .look, .countOff, .hand] = some t ∧
      t.ledger.handed = [Postroom.parcel] ∧
      Postroom.application.consumer Postroom.tray Postroom.parcel = .done .crashed ∧
      t.run [.signal, .finish true] = some u ∧ u.ledger.queue.worker = .crashed :=
  ⟨_, _, _, rfl, rfl, rfl, rfl, rfl, rfl, rfl, rfl, rfl, rfl, rfl⟩

end UseCaseEngine
