import UseCaseEngine.Proofs.Custody

/-!
# How a queue counts

A queue counts the messages that wait apart from where they wait: a put counts its message before it
sends it, and takes that back if nobody receives it; the worker counts a message off after it has
received it, unless the queue was stopped in between. Puts of several parties and the worker go on
at the same time (`Counter`), each step of them at any time. What moves do to a queue (`Ledger.run`)
is what such steps come to when one party is served after another.

Out of scope: what else happens when a queue is stopped or its worker dies. Here that is a message
that nobody receives, or one that is never counted off; the rest is in `Service`.

* `put_eq`, `take?_eq`: to put and to take are such steps, one after another.
* `Counter.Sound.step`: nobody counts off at zero, and whoever is under way is accounted for.
* `Counter.exists_acts`: what a queue does is what one party does while nobody else does anything.
* `Ledger.move_passes`: what a move lets in or out, one message at most.
* `Ledger.still_run_of_closed`: once the worker is gone, or the queue was stopped, nothing counts.
* **`size_accounts`**: a queue's size is what it accepted less what its worker took out.
-/

namespace UseCaseEngine

variable {S : Signature}

/-! ## The counter and the channel -/

namespace Queue

/-- Counts a message more. -/
def count (q : Queue) : Queue := { q with size := q.size + 1 }

/-- Counts a message less. At zero this is what must never be done. -/
def uncount? (q : Queue) : Option Queue :=
  match q.size with
  | 0 => none
  | size + 1 => some { q with size }

/-- Sends a message, if there is a worker to receive it. -/
def send? (q : Queue) (m : Message) : Option Queue :=
  match q.worker with
  | .alive => some { q with waiting := q.waiting ++ [m] }
  | _ => none

/-- The worker receives the oldest message, if it is free to. -/
def receive? (q : Queue) : Option (Message × Queue) :=
  match q.worker, q.inHand, q.waiting with
  | .alive, none, m :: rest => some (m, { q with waiting := rest })
  | _, _, _ => none

/-- It has the message in its hand. -/
def grip (q : Queue) (m : Message) : Queue := { q with inHand := some m }

/-- It accepts nothing, and its worker takes nothing out. -/
def Closed (q : Queue) : Prop := q.stopped = true ∨ q.worker ≠ .alive

variable (q : Queue)

theorem uncount?_count : q.count.uncount? = some q := rfl

theorem uncount?_of_pos {q : Queue} (h : 0 < q.size) :
    q.uncount? = some { q with size := q.size - 1 } := by
  unfold uncount?
  cases hsize : q.size with
  | zero => exact absurd h (hsize ▸ Nat.lt_irrefl 0)
  | succ size => rfl

theorem send?_cases (m : Message) :
    q.worker = .alive ∧ q.send? m = some { q with waiting := q.waiting ++ [m] } ∨
      q.worker ≠ .alive ∧ q.send? m = none := by
  unfold send?
  cases q.worker <;> simp

theorem receive?_cases :
    q.receive? = none ∨ ∃ m rest, q.waiting = m :: rest ∧ q.inHand = none ∧ q.worker = .alive ∧
      q.receive? = some (m, { q with waiting := rest }) := by
  unfold receive?
  split
  · rename_i hworker hhand hwaiting
    exact .inr ⟨_, _, hwaiting, hhand, hworker, rfl⟩
  · exact .inl rfl

/-- What the worker receives was counted. -/
theorem uncount?_of_receive? {q q' : Queue} {m : Message} (h : q.size = q.waiting.length)
    (hreceive : q.receive? = some (m, q')) :
    q'.stopped = q.stopped ∧ q'.uncount? = some { q' with size := q.size - 1 } := by
  rcases q.receive?_cases with hnone | ⟨m', rest, hwaiting, -, -, hsome⟩
  · rw [hnone] at hreceive
    cases hreceive
  · rw [hsome] at hreceive
    cases hreceive
    refine ⟨rfl, uncount?_of_pos ?_⟩
    change 0 < q.size
    rw [h, hwaiting]
    exact Nat.succ_pos _

/-- **A put** counts its message and sends it, or takes the count back. -/
theorem put_eq (m : Message) :
    q.put m =
      if q.stopped then (q, .error (.stopped q.name))
      else match q.count.send? m with
        | some q' => (q', .ok ())
        | none => (q.count.uncount?.getD q.count, .error (.stopped q.name)) := by
  unfold put
  rw [uncount?_count]
  split
  · rfl
  · unfold send? count
    cases hworker : q.worker <;> simp

/-- **The worker takes a message out**: it receives it, and counts it off unless the queue was
stopped. -/
theorem take?_eq {q : Queue} (h : q.size = q.waiting.length) :
    q.take? = if q.stopped then none else
      q.receive?.bind fun (m, q') => q'.uncount?.map fun q'' => (m, q''.grip m) := by
  cases hstopped : q.stopped with
  | true => rw [take?_of_stopped hstopped, if_pos rfl]
  | false =>
    rw [if_neg Bool.false_ne_true]
    rcases q.receive?_cases with hnone | ⟨m, rest, hwaiting, hhand, hworker, hsome⟩
    · rw [hnone, Option.bind_none]
      rcases q.take?_cases with htake | ⟨m, rest, hwaiting, hhand, -, hworker, -⟩
      · exact htake
      · simp [receive?, hworker, hhand, hwaiting] at hnone
    · rw [hsome, Option.bind_some]
      dsimp only
      rw [(uncount?_of_receive? h hsome).2]
      simp [take?, hworker, hstopped, hhand, hwaiting, grip]

theorem not_closed_iff : ¬ q.Closed ↔ q.stopped = false ∧ q.worker = .alive := by
  simp [Closed]

/-- A queue refuses messages if it is closed, and only then. -/
theorem put_of_closed {q : Queue} (h : q.Closed) (m : Message) :
    q.put m = (q, .error (.stopped q.name)) := by
  rcases q.put_cases m with hput | hput
  · refine absurd h (q.not_closed_iff.mpr ((q.put_eq_ok_iff m).mp ?_))
    rw [hput]
  · exact hput

theorem closed_of_error {q : Queue} {m : Message} {e : QueueError} (h : (q.put m).2 = .error e) :
    q.Closed := by
  refine Classical.byContradiction fun hopen => ?_
  rw [(q.put_eq_ok_iff m).mpr (q.not_closed_iff.mp hopen)] at h
  cases h

theorem isEmpty_iff : q.isEmpty = true ↔ q.size = 0 := beq_iff_eq

end Queue

/-! ## Several parties -/

/-- A queue, with those who are about to put a message and a worker that is about to take one. -/
structure Counter where
  ledger : Ledger
  /-- How many have counted their message and not sent it yet. -/
  sending : Nat := 0
  /-- How many could not send their message and still count it. -/
  failing : Nat := 0
  /-- What the worker received and has not counted off. -/
  received : List Message := []
  /-- What the worker received of a stopped queue, and dropped. -/
  dropped : List Message := []
  deriving DecidableEq, Repr

namespace Counter

/-- A step of somebody. -/
inductive Act where
  /-- A put sees that the queue is not stopped, and counts its message. -/
  | count
  /-- A put that has counted sends its message. -/
  | send (m : Message)
  /-- A put that could not send takes its count back. -/
  | uncount
  /-- The worker receives a message. -/
  | receive
  /-- The worker counts off what it received; or it sees that the queue is stopped, and ends. -/
  | countOff
  /-- The worker starts to handle the message in its hand. -/
  | hand
  /-- The worker handled it to its end, or died over it. -/
  | finish (died : Bool)
  /-- Somebody stops the queue. -/
  | stop
  deriving DecidableEq, Repr

/-- Nothing happened to the queue of the name yet. -/
def fresh (name : String) : Counter := { ledger := .fresh name }

/-- The counter with another queue. -/
def setQueue (d : Counter) (q : Queue) : Counter :=
  { d with ledger := { d.ledger with queue := q } }

/-- What comes of a step; nothing, if it counts off at zero. -/
def step (d : Counter) : Act → Option Counter
  | .count =>
    if d.ledger.queue.stopped then some d
    else some { d.setQueue d.ledger.queue.count with sending := d.sending + 1 }
  | .send m =>
    match d.sending with
    | 0 => some d
    | sending + 1 =>
      match d.ledger.queue.send? m with
      | some q =>
        some { d with ledger := ({ d.ledger with queue := q } : Ledger).add m .accepted, sending }
      | none => some { d with sending, failing := d.failing + 1 }
  | .uncount =>
    match d.failing with
    | 0 => some d
    | failing + 1 => d.ledger.queue.uncount?.map fun q => { d.setQueue q with failing }
  | .receive =>
    match d.received, d.ledger.queue.receive? with
    | [], some (m, q) => some { d.setQueue q with received := [m] }
    | _, _ => some d
  | .countOff =>
    match d.received with
    | [] => some d
    | m :: rest =>
      if d.ledger.queue.stopped then
        some { d.setQueue { d.ledger.queue with worker := .ended } with
          received := rest, dropped := d.dropped ++ [m] }
      else d.ledger.queue.uncount?.map fun q =>
        { d with
          ledger := ({ d.ledger with queue := q.grip m } : Ledger).add m .taken
          received := rest }
  | .hand => some { d with ledger := d.ledger.move .hand }
  | .finish died => some { d with ledger := d.ledger.move (.finish died) }
  | .stop => some { d with ledger := d.ledger.move .stop }

/-- What comes of several steps. -/
def run (d : Counter) (acts : List Act) : Option Counter := acts.foldlM step d

/-- Whatever is counted is somewhere. -/
structure Sound (d : Counter) : Prop where
  size : d.ledger.queue.size = d.ledger.queue.waiting.length + d.sending + d.failing +
    d.received.length + d.dropped.length
  accepted : d.ledger.accepted.length = d.ledger.taken.length + d.ledger.queue.waiting.length +
    d.received.length + d.dropped.length

theorem sound_fresh (name : String) : (fresh name).Sound := ⟨rfl, rfl⟩

end Counter

/-! ## What goes in and out -/

/-- It is about a message that the worker has in its hand already, or about none. -/
def Queue.Move.isQuiet : Queue.Move → Bool
  | .put _ | .take => false
  | _ => true

namespace Ledger

/-- Nothing goes in or out. -/
structure Still (x y : Ledger) : Prop where
  size : y.queue.size = x.queue.size
  waiting : y.queue.waiting = x.queue.waiting
  accepted : y.accepted = x.accepted
  taken : y.taken = x.taken

theorem still_refl (x : Ledger) : x.Still x := ⟨rfl, rfl, rfl, rfl⟩

theorem Still.trans {x y z : Ledger} (h : x.Still y) (h' : y.Still z) : x.Still z :=
  ⟨h'.size.trans h.size, h'.waiting.trans h.waiting, h'.accepted.trans h.accepted,
    h'.taken.trans h.taken⟩

/-- What a move may let in or out. -/
inductive Passes (x y : Ledger) : Queue.Move → Prop
  /-- A message goes in, at the end of those that wait. -/
  | entry (m : Message) (hopen : ¬ x.queue.Closed) (size : y.queue.size = x.queue.size + 1)
      (waiting : y.queue.waiting = x.queue.waiting ++ [m]) : Passes x y (.put m)
  /-- The first one that waits comes out. -/
  | exit (m : Message) (hopen : ¬ x.queue.Closed) (size : y.queue.size = x.queue.size - 1)
      (waiting : x.queue.waiting = m :: y.queue.waiting) : Passes x y .take
  | nothing (a : Queue.Move) (still : x.Still y) : Passes x y a

theorem move_passes (x : Ledger) (a : Queue.Move) : x.Passes (x.move a) a := by
  cases a with
  | put m =>
    by_cases hclosed : x.queue.Closed
    · have hput : x.move (.put m) = x := by
        simp only [Ledger.move, Queue.put_of_closed hclosed]
      rw [hput]
      exact .nothing _ x.still_refl
    · rcases x.move_put m with hput | ⟨-, herror⟩
      · rw [hput]
        exact .entry m hclosed rfl rfl
      · exact absurd (Queue.closed_of_error herror) hclosed
  | take =>
    rcases x.move_take with h | ⟨m, rest, hwaiting, -, hstopped, hworker, h⟩ <;> rw [h]
    · exact .nothing _ x.still_refl
    · refine .exit m ?_ rfl hwaiting
      rintro (hclosed | hclosed)
      · exact Bool.false_ne_true (hstopped.symm.trans hclosed)
      · exact hclosed hworker
  | hand =>
    rcases x.move_hand with h | ⟨m, -, -, h⟩ <;> rw [h] <;> exact .nothing _ ⟨rfl, rfl, rfl, rfl⟩
  | finish died =>
    rcases x.move_finish died with h | ⟨m, -, -, h⟩ <;> rw [h] <;>
      exact .nothing _ ⟨rfl, rfl, rfl, rfl⟩
  | stop =>
    rw [x.move_stop]
    exact .nothing _ ⟨rfl, rfl, rfl, rfl⟩

theorem move_still (x : Ledger) {a : Queue.Move} (h : a.isQuiet = true) : x.Still (x.move a) := by
  cases x.move_passes a with
  | entry | exit => cases h
  | nothing _ still => exact still

end Ledger

namespace Counter

variable {d : Counter}

/-- What lets nothing in or out needs no counting. -/
theorem Sound.still (h : d.Sound) {x : Ledger} (hstill : d.ledger.Still x) :
    ({ d with ledger := x } : Counter).Sound := by
  refine ⟨?_, ?_⟩
  · simpa only [hstill.size, hstill.waiting] using h.size
  · simpa only [hstill.accepted, hstill.taken, hstill.waiting] using h.accepted

section Step

variable (h : d.Sound)
include h

theorem Sound.count : ∃ d', d.step .count = some d' ∧ d'.Sound := by
  unfold Counter.step
  dsimp only
  split
  · exact ⟨d, rfl, h⟩
  · refine ⟨_, rfl, ?_, h.accepted⟩
    have hsize := h.size
    simp only [setQueue, Queue.count]
    omega

/-- What is sent waits, or it is still to be uncounted. -/
theorem Sound.send (m : Message) : ∃ d', d.step (.send m) = some d' ∧ d'.Sound := by
  have hsize := h.size
  have haccepted := h.accepted
  unfold Counter.step
  dsimp only
  split
  · exact ⟨d, rfl, h⟩
  · rename_i sending hsending
    rcases d.ledger.queue.send?_cases m with ⟨-, hsend⟩ | ⟨-, hsend⟩
    · rw [hsend]
      refine ⟨_, rfl, ?_, ?_⟩ <;>
        simp only [Ledger.add, List.length_append, List.length_singleton] <;> omega
    · rw [hsend]
      refine ⟨_, rfl, ?_, haccepted⟩
      dsimp only
      omega

/-- Whoever uncounts a message has counted it. -/
theorem Sound.uncount : ∃ d', d.step .uncount = some d' ∧ d'.Sound := by
  have hsize := h.size
  unfold Counter.step
  dsimp only
  split
  · exact ⟨d, rfl, h⟩
  · rename_i failing hfailing
    rw [Queue.uncount?_of_pos (by omega)]
    refine ⟨_, rfl, ?_, h.accepted⟩
    simp only [setQueue]
    omega

theorem Sound.receive : ∃ d', d.step .receive = some d' ∧ d'.Sound := by
  have hsize := h.size
  have haccepted := h.accepted
  unfold Counter.step
  dsimp only
  split
  · rename_i m q hreceived hreceive
    rcases d.ledger.queue.receive?_cases with hnone | ⟨m', rest, hwaiting, -, -, hsome⟩
    · rw [hnone] at hreceive
      cases hreceive
    · rw [hsome] at hreceive
      cases hreceive
      rw [hreceived, hwaiting] at hsize haccepted
      simp only [List.length_cons, List.length_nil] at hsize haccepted
      refine ⟨_, rfl, ?_, ?_⟩ <;>
        simp only [setQueue, List.length_singleton] <;> omega
  · exact ⟨d, rfl, h⟩

/-- What the worker received counts until it counts it off. -/
theorem Sound.countOff : ∃ d', d.step .countOff = some d' ∧ d'.Sound := by
  have hsize := h.size
  have haccepted := h.accepted
  unfold Counter.step
  dsimp only
  split
  · exact ⟨d, rfl, h⟩
  · rename_i m rest hreceived
    rw [hreceived, List.length_cons] at hsize haccepted
    split
    · refine ⟨_, rfl, ?_, ?_⟩ <;>
        simp only [setQueue, List.length_append, List.length_singleton] <;> omega
    · rw [Queue.uncount?_of_pos (by omega)]
      refine ⟨_, rfl, ?_, ?_⟩ <;>
        simp only [Ledger.add, Queue.grip, List.length_append, List.length_singleton] <;> omega

/-- **One step** counts nothing off at zero, and loses sight of nothing. -/
theorem Sound.step (a : Act) : ∃ d', d.step a = some d' ∧ d'.Sound := by
  cases a with
  | count => exact h.count
  | send m => exact h.send m
  | uncount => exact h.uncount
  | receive => exact h.receive
  | countOff => exact h.countOff
  | hand => exact ⟨_, rfl, h.still (d.ledger.move_still rfl)⟩
  | finish died => exact ⟨_, rfl, h.still (d.ledger.move_still rfl)⟩
  | stop => exact ⟨_, rfl, h.still (d.ledger.move_still rfl)⟩

end Step

/-- And so do any number of them, whoever's turn it is. -/
theorem Sound.run (h : d.Sound) (acts : List Act) : ∃ d', d.run acts = some d' ∧ d'.Sound := by
  induction acts generalizing d with
  | nil => exact ⟨d, rfl, h⟩
  | cons a acts ih =>
    obtain ⟨d₁, hstep, h₁⟩ := h.step a
    obtain ⟨d₂, hrun, h₂⟩ := ih h₁
    refine ⟨d₂, ?_, h₂⟩
    rw [Counter.run, List.foldlM_cons, hstep]
    exact hrun

/-- What is put is counted and sent, or uncounted again. -/
theorem exists_acts_put (x : Ledger) (m : Message) :
    ∃ acts, ({ ledger := x } : Counter).run acts = some { ledger := x.move (.put m) } := by
  cases hstopped : x.queue.stopped with
  | true =>
    refine ⟨[], ?_⟩
    simp only [Ledger.move, Queue.put_of_closed (.inl hstopped)]
    rfl
  | false =>
    have hput := x.queue.put_eq m
    rw [hstopped, if_neg Bool.false_ne_true, Queue.uncount?_count] at hput
    rcases x.queue.count.send?_cases m with ⟨-, hsend⟩ | ⟨-, hsend⟩ <;> rw [hsend] at hput
    · refine ⟨[.count, .send m], ?_⟩
      simp only [Ledger.move, hput]
      simp [Counter.run, Counter.step, hstopped, setQueue, hsend]
    · refine ⟨[.count, .send m, .uncount], ?_⟩
      simp only [Ledger.move, hput]
      simp [Counter.run, Counter.step, hstopped, setQueue, hsend, Queue.uncount?_count]

/-- What is taken out is received and counted off. -/
theorem exists_acts_take {x : Ledger} (h : x.queue.size = x.queue.waiting.length) :
    ∃ acts, ({ ledger := x } : Counter).run acts = some { ledger := x.move .take } := by
  have htake := Queue.take?_eq h
  cases hstopped : x.queue.stopped with
  | true =>
    rw [hstopped, if_pos rfl] at htake
    refine ⟨[], ?_⟩
    simp only [Ledger.move, htake]
    rfl
  | false =>
    rw [hstopped, if_neg Bool.false_ne_true] at htake
    cases hreceive : x.queue.receive? with
    | none =>
      rw [hreceive, Option.bind_none] at htake
      refine ⟨[], ?_⟩
      simp only [Ledger.move, htake]
      rfl
    | some result =>
      obtain ⟨m, q'⟩ := result
      obtain ⟨hstopped', hoff⟩ := Queue.uncount?_of_receive? h hreceive
      rw [hreceive, Option.bind_some] at htake
      dsimp only at htake
      rw [hoff] at htake
      refine ⟨[.receive, .countOff], ?_⟩
      simp only [Ledger.move, htake, Option.map_some]
      simp [Counter.run, Counter.step, hreceive, setQueue, hstopped', hstopped, hoff]

/-- **A move of the queue** is steps of one party, with nobody else under way. -/
theorem exists_acts {x : Ledger} (h : x.queue.size = x.queue.waiting.length) (a : Queue.Move) :
    ∃ acts, ({ ledger := x } : Counter).run acts = some { ledger := x.move a } := by
  cases a with
  | put m => exact exists_acts_put x m
  | take => exact exists_acts_take h
  | hand => exact ⟨[.hand], rfl⟩
  | finish died => exact ⟨[.finish died], rfl⟩
  | stop => exact ⟨[.stop], rfl⟩

end Counter

/-! ## One party at a time -/

namespace Ledger

section Move

variable {x : Ledger} (h : x.queue.size = x.queue.waiting.length) {a : Queue.Move}
include h

/-- **One move** changes the count as it changes what waits. -/
theorem size_move (a : Queue.Move) :
    (x.move a).queue.size = (x.move a).queue.waiting.length := by
  cases x.move_passes a with
  | entry m _ size waiting => rw [size, waiting, List.length_append, h, List.length_singleton]
  | exit m _ size waiting => rw [size, h, waiting, List.length_cons, Nat.add_sub_cancel]
  | nothing _ still => rw [still.size, still.waiting, h]

/-- A message is counted off when it is taken out, and it was counted. -/
theorem take_of_size_lt (hlt : (x.move a).queue.size < x.queue.size) :
    a = .take ∧ (x.move a).queue.size + 1 = x.queue.size := by
  cases x.move_passes a with
  | entry m _ size => exact absurd (size ▸ hlt) (Nat.not_lt.mpr (Nat.le_succ _))
  | exit m _ size waiting =>
    refine ⟨rfl, ?_⟩
    rw [size, h, waiting, List.length_cons, Nat.add_sub_cancel]
  | nothing _ still => exact absurd (still.size ▸ hlt) (Nat.lt_irrefl _)

theorem size_run (moves : List Queue.Move) :
    (x.run moves).queue.size = (x.run moves).queue.waiting.length := by
  induction moves generalizing x with
  | nil => exact h
  | cons a moves ih => exact ih (size_move h a)

end Move

/-- Any number of moves are steps of one party after another. -/
theorem exists_acts_run {x : Ledger} (h : x.queue.size = x.queue.waiting.length)
    (moves : List Queue.Move) :
    ∃ acts, ({ ledger := x } : Counter).run acts = some { ledger := x.run moves } := by
  induction moves generalizing x with
  | nil => exact ⟨[], rfl⟩
  | cons a moves ih =>
    obtain ⟨acts, hacts⟩ := Counter.exists_acts h a
    obtain ⟨more, hmore⟩ := ih (size_move h a)
    refine ⟨acts ++ more, ?_⟩
    rw [Counter.run, List.foldlM_append, ← Counter.run, hacts]
    exact hmore

/-! ## Without a worker -/

/-- A queue that is closed stays closed. -/
theorem closed_move {x : Ledger} (h : x.queue.Closed) (a : Queue.Move) :
    (x.move a).queue.Closed := by
  cases a with
  | put m => rcases x.move_put m with hput | ⟨hput, -⟩ <;> rw [hput] <;> exact h
  | take => rcases x.move_take with htake | ⟨m, rest, -, -, -, -, htake⟩ <;> rw [htake] <;> exact h
  | hand => rcases x.move_hand with hhand | ⟨m, -, -, hhand⟩ <;> rw [hhand] <;> exact h
  | finish died =>
    rcases x.move_finish died with hdone | ⟨m, -, -, hdone⟩ <;> rw [hdone]
    · exact h
    · refine h.imp id fun hworker => ?_
      unfold Queue.finish
      dsimp only
      split
      · nofun
      · split
        · nofun
        · exact hworker
  | stop => exact .inl x.queue.stop_stopped

/-- **One move** of a closed queue lets nothing in or out. -/
theorem still_of_closed {x : Ledger} (h : x.queue.Closed) (a : Queue.Move) :
    x.Still (x.move a) := by
  cases x.move_passes a with
  | entry _ hopen | exit _ hopen => exact absurd h hopen
  | nothing _ still => exact still

/-- And so does any number of moves. -/
theorem still_run_of_closed {x : Ledger} (h : x.queue.Closed) (moves : List Queue.Move) :
    (x.run moves).queue.Closed ∧ x.Still (x.run moves) := by
  induction moves generalizing x with
  | nil => exact ⟨h, x.still_refl⟩
  | cons a moves ih =>
    obtain ⟨hclosed, hstill⟩ := ih (closed_move h a)
    exact ⟨hclosed, (still_of_closed h a).trans hstill⟩

/-! ## The size -/

/-- What a queue's counter says, and what changes it. -/
structure Accounts (x : Ledger) : Prop where
  size : x.queue.size + x.taken.length = x.accepted.length
  waiting : x.queue.size = x.queue.waiting.length
  isEmpty : x.queue.isEmpty = true ↔ x.queue.waiting = []
  /-- A message is counted off when it is taken out, and then it was counted. -/
  countedOff : ∀ a, (x.move a).queue.size < x.queue.size →
    a = .take ∧ (x.move a).queue.size + 1 = x.queue.size
  /-- A put is refused by a closed queue only, -/
  closed : ∀ m e, (x.queue.put m).2 = .error e → x.queue.Closed
  /-- and by every one, which it leaves as it is. -/
  refused : ∀ m, x.queue.Closed →
    (x.queue.put m).2 = .error (.stopped x.queue.name) ∧ x.move (.put m) = x
  /-- A stop, or the end of a message's handling, good or bad, leaves the others where they are. -/
  abandoned : ∀ a : Queue.Move, a.isQuiet = true → x.Still (x.move a)
  /-- Once the queue is closed, nothing counts any more. -/
  constant : x.queue.Closed → ∀ more, (x.run more).queue.Closed ∧ x.Still (x.run more)

theorem Sound.accounts {x : Ledger} (h : x.Sound)
    (hsize : x.queue.size = x.queue.waiting.length) : x.Accounts where
  size := by rw [h.accepted, List.length_append, hsize, Nat.add_comm]
  waiting := hsize
  isEmpty := by rw [Queue.isEmpty_iff, hsize, List.length_eq_zero_iff]
  countedOff _ := take_of_size_lt hsize
  closed _ _ := Queue.closed_of_error
  refused m hclosed := by
    have hput := Queue.put_of_closed hclosed m
    refine ⟨congrArg Prod.snd hput, ?_⟩
    simp only [Ledger.move, hput]
  abandoned _ := x.move_still
  constant := still_run_of_closed

theorem accounts (name : String) (moves : List Queue.Move) : ((fresh name).run moves).Accounts :=
  ((sound_fresh name).run moves).accounts (size_run rfl moves)

end Ledger

/-- **A queue's size is what it accepted less what its worker took out**, whatever happens to the
queue and in whatever order: it counts what waits, also what a stop or the worker's death left
there.

While puts of several parties and the worker are in the middle of what they do, nobody ever counts
off at zero: the size is what was accepted and not taken out, and what is being put. What happens to
the queue otherwise is such steps, of one party at a time. -/
theorem size_accounts (app : Application S) (q : QueueId S) (name : String) :
    (∀ moves, ((Ledger.fresh name).run moves).Accounts ∧
      ∃ acts, (Counter.fresh name).run acts = some { ledger := (Ledger.fresh name).run moves }) ∧
      (∀ acts, ∃ d, (Counter.fresh name).run acts = some d ∧
        d.ledger.queue.size + d.ledger.taken.length =
          d.ledger.accepted.length + d.sending + d.failing) ∧
      ∀ w : World S, w.journal = [] → w.queue q = { name } →
        ∀ operations : List (Operation S),
          ((operations.foldl (Operation.apply app) w).ledger q).Accounts := by
  refine ⟨fun moves => ⟨Ledger.accounts name moves, Ledger.exists_acts_run rfl moves⟩,
    fun acts => ?_, fun w hjournal hqueue operations => ?_⟩
  · obtain ⟨d, hrun, hsound⟩ := (Counter.sound_fresh name).run acts
    refine ⟨d, hrun, ?_⟩
    have hsize := hsound.size
    have haccepted := hsound.accepted
    omega
  · obtain ⟨moves, hmoves⟩ := exists_moves app q hjournal hqueue operations
    rw [hmoves]
    exact Ledger.accounts name moves

/-- The postroom is closed while a torn letter comes in behind a copy: both stay, and count. -/
theorem size_accounts_in_postroom :
    Postroom.start.journal = [] ∧ Postroom.start.queue Postroom.tray = { name := "tray" } ∧
      ((Postroom.day.foldl (Operation.apply Postroom.application)
        Postroom.start).ledger Postroom.tray).Accounts ∧
      ((Postroom.day.foldl (Operation.apply Postroom.application)
        Postroom.start).queue Postroom.tray).size = 2 ∧
      (Ledger.fresh "tray").run [.put Postroom.torn, .take, .hand, .put Postroom.circular,
          .finish true, .put Postroom.parcel] =
        (Ledger.fresh "tray").run [.put Postroom.torn, .take, .hand, .put Postroom.circular,
          .finish true] := by
  have haccounts := size_accounts Postroom.application Postroom.tray "tray"
  refine ⟨rfl, rfl, haccounts.2.2 Postroom.start rfl rfl Postroom.day, by decide +kernel, ?_⟩
  exact ((haccounts.1 [.put Postroom.torn, .take, .hand, .put Postroom.circular,
    .finish true]).1.refused Postroom.parcel (.inr (by decide))).2

end UseCaseEngine
