import UseCaseEngine.Example.Postroom
import UseCaseEngine.Proofs.Reach

/-!
# Where the messages of a queue are

A message that a queue accepted waits, or its worker took it out; what the worker took out it holds,
handles, or is done with. A `Ledger` keeps lists of all these, in the order in which it happened,
while anybody puts messages and stops the queue, and its worker takes messages out, starts to handle
them and comes to their end, in whatever order (`Queue.Move`). A move is a whole `put`, `take?`,
`start`, `finish` or `stop`; the order of two moves is free.

Out of scope: moves that overlap, for which see `Counter` and `Service`. No message changes its
place in the order by that, since a message is sent, and received, in one step.

* `Ledger.Sound.run`: each message is in one place, and none overtakes another.
* `Operation.apply_moves`: all that happens to a queue of a world are such moves, whatever the code
  that handles its messages does.
* **`handled_in_order`**: messages are handled in the order in which they were accepted, each once
  and one at a time, and a message that was refused is not handled.
-/

namespace UseCaseEngine

variable {S : Signature}

/-! ## What a queue does -/

namespace Queue

variable (q : Queue)

theorem put_cases (m : Message) :
    q.put m = ({ q with waiting := q.waiting ++ [m], size := q.size + 1 }, .ok ()) ∨
      q.put m = (q, .error (.stopped q.name)) := by
  unfold put
  split
  · exact .inr rfl
  · split
    · exact .inl rfl
    · exact .inr rfl

theorem take?_cases :
    q.take? = none ∨ ∃ m rest, q.waiting = m :: rest ∧ q.inHand = none ∧ q.stopped = false ∧
      q.worker = .alive ∧
      q.take? = some (m, { q with waiting := rest, size := q.size - 1, inHand := some m }) := by
  unfold take?
  split
  · rename_i hworker hstopped hhand hwaiting
    exact .inr ⟨_, _, hwaiting, hhand, hstopped, hworker, rfl⟩
  · exact .inl rfl

/-- A queue that is stopped keeps its messages. -/
theorem stop_fst : q.stop.1 = { q with stopped := true, worker := q.stop.1.worker } := by
  unfold stop
  split
  · rename_i h
    rw [← h]
  · split
    · rfl
    · split <;> rfl

end Queue

/-! ## Moves -/

/-- What can happen to a queue. -/
inductive Queue.Move where
  /-- Somebody puts a message. -/
  | put (m : Message)
  /-- The worker takes the oldest message out. -/
  | take
  /-- The worker starts to handle the message in its hand. -/
  | hand
  /-- The worker handled it to its end, or died over it. -/
  | finish (died : Bool)
  /-- Somebody stops the queue. -/
  | stop
  deriving DecidableEq, Repr

/-- Anybody may do it, the worker included while it handles a message. -/
def Queue.Move.isOpen : Queue.Move → Bool
  | .put _ | .stop => true
  | _ => false

/-- What becomes of a message that is put. -/
inductive Stage where
  /-- The queue accepted it. -/
  | accepted
  /-- The worker took it out. -/
  | taken
  /-- The worker started to handle it. -/
  | handed
  /-- The worker is done with it. -/
  | consumed
  deriving DecidableEq, Repr

/-- A queue, and what became of its messages, each list in order. -/
structure Ledger where
  queue : Queue
  accepted : List Message := []
  taken : List Message := []
  handed : List Message := []
  consumed : List Message := []
  deriving DecidableEq, Repr

namespace Ledger

/-- Nothing happened to the queue of the name yet. -/
def fresh (name : String) : Ledger := { queue := { name } }

/-- What the worker holds and does not handle yet. -/
def held (x : Ledger) : List Message := if x.queue.handling then [] else x.queue.inHand.toList

/-- What the worker handles. -/
def underway (x : Ledger) : List Message := if x.queue.handling then x.queue.inHand.toList else []

/-- The ledger with a message more on one of its lists. -/
def add (x : Ledger) (m : Message) : Stage → Ledger
  | .accepted => { x with accepted := x.accepted ++ [m] }
  | .taken => { x with taken := x.taken ++ [m] }
  | .handed => { x with handed := x.handed ++ [m] }
  | .consumed => { x with consumed := x.consumed ++ [m] }

/-- The ledger after a move. Without a message in its hand a worker has nothing to start with, and
none to end. -/
def move (x : Ledger) : Queue.Move → Ledger
  | .put m =>
    match x.queue.put m with
    | (q, .ok ()) => ({ x with queue := q } : Ledger).add m .accepted
    | (q, .error _) => { x with queue := q }
  | .take =>
    match x.queue.take? with
    | some (m, q) => ({ x with queue := q } : Ledger).add m .taken
    | none => x
  | .hand =>
    match x.queue.inHand, x.queue.handling with
    | some m, false => ({ x with queue := x.queue.start } : Ledger).add m .handed
    | _, _ => x
  | .finish died =>
    match x.queue.inHand, x.queue.handling with
    | some m, true => ({ x with queue := x.queue.finish died } : Ledger).add m .consumed
    | _, _ => x
  | .stop => { x with queue := x.queue.stop.1 }

/-- The ledger after several moves. -/
def run (x : Ledger) (moves : List Queue.Move) : Ledger := moves.foldl move x

theorem run_append (x : Ledger) (moves more : List Queue.Move) :
    x.run (moves ++ more) = (x.run moves).run more :=
  List.foldl_append

/-- A put is accepted, or nothing comes of it. -/
theorem move_put (x : Ledger) (m : Message) :
    x.move (.put m) = { x with
        queue := { x.queue with waiting := x.queue.waiting ++ [m], size := x.queue.size + 1 }
        accepted := x.accepted ++ [m] } ∨
      x.move (.put m) = x ∧ (x.queue.put m).2 = .error (.stopped x.queue.name) := by
  unfold move
  dsimp only
  rcases x.queue.put_cases m with h | h
  · rw [h]
    exact .inl rfl
  · rw [h]
    exact .inr ⟨rfl, rfl⟩

/-- The worker takes a message out if its hands are free, unless the queue is stopped. -/
theorem move_take (x : Ledger) :
    x.move .take = x ∨ ∃ m rest, x.queue.waiting = m :: rest ∧ x.queue.inHand = none ∧
      x.queue.stopped = false ∧ x.queue.worker = .alive ∧
      x.move .take = { x with
        queue := { x.queue with waiting := rest, size := x.queue.size - 1, inHand := some m }
        taken := x.taken ++ [m] } := by
  unfold move
  dsimp only
  rcases x.queue.take?_cases with h | ⟨m, rest, hwaiting, hhand, hstopped, hworker, h⟩
  · rw [h]
    exact .inl rfl
  · rw [h]
    exact .inr ⟨m, rest, hwaiting, hhand, hstopped, hworker, rfl⟩

/-- It starts to handle a message that it holds. -/
theorem move_hand (x : Ledger) :
    x.move .hand = x ∨ ∃ m, x.queue.inHand = some m ∧ x.queue.handling = false ∧
      x.move .hand = { x with queue := x.queue.start, handed := x.handed ++ [m] } := by
  unfold move
  dsimp only
  split
  · rename_i m hhand hidle
    exact .inr ⟨m, hhand, hidle, rfl⟩
  · exact .inl rfl

/-- It comes to the end of a message that it handles. -/
theorem move_finish (x : Ledger) (died : Bool) :
    x.move (.finish died) = x ∨ ∃ m, x.queue.inHand = some m ∧ x.queue.handling = true ∧
      x.move (.finish died) =
        { x with queue := x.queue.finish died, consumed := x.consumed ++ [m] } := by
  unfold move
  dsimp only
  split
  · rename_i m hhand hbusy
    exact .inr ⟨m, hhand, hbusy, rfl⟩
  · exact .inl rfl

theorem move_stop (x : Ledger) :
    x.move .stop = { x with
      queue := { x.queue with stopped := true, worker := x.queue.stop.1.worker } } := by
  rw [move, x.queue.stop_fst]

/-- Every message is in one place, and none overtakes another. -/
structure Sound (x : Ledger) : Prop where
  accepted : x.accepted = x.taken ++ x.queue.waiting
  taken : x.taken = x.consumed ++ x.queue.inHand.toList
  handed : x.handed = x.consumed ++ x.underway
  /-- Who handles a message has one. -/
  busy : x.queue.handling = true → x.queue.inHand.isSome = true

theorem sound_fresh (name : String) : (fresh name).Sound :=
  ⟨rfl, rfl, rfl, nofun⟩

section Sound

variable {x : Ledger}

theorem underway_of_idle (h : x.queue.handling = false) : x.underway = [] := by
  simp [underway, h]

theorem underway_of_busy (h : x.queue.handling = true) : x.underway = x.queue.inHand.toList := by
  simp [underway, h]

variable (h : x.Sound)
include h

/-- Who has no message handles none. -/
theorem Sound.idle (hhand : x.queue.inHand = none) : x.queue.handling = false := by
  cases hbusy : x.queue.handling with
  | false => rfl
  | true =>
    have hsome := h.busy hbusy
    rw [hhand] at hsome
    cases hsome

/-- **One move** leaves every message in one place. -/
theorem Sound.move (a : Queue.Move) : (x.move a).Sound := by
  cases a with
  | put m =>
    rcases x.move_put m with hput | ⟨hput, -⟩
    · rw [hput]
      refine ⟨?_, h.taken, h.handed, h.busy⟩
      rw [h.accepted, List.append_assoc]
    · rwa [hput]
  | take =>
    rcases x.move_take with htake | ⟨m, rest, hwaiting, hhand, -, -, htake⟩
    · rwa [htake]
    · rw [htake]
      have hidle := h.idle hhand
      refine ⟨?_, ?_, ?_, fun _ => rfl⟩
      · rw [h.accepted, hwaiting, List.append_assoc]
        rfl
      · rw [h.taken, hhand, Option.toList_none, List.append_nil]
        rfl
      · simpa [underway, hidle] using h.handed
  | hand =>
    rcases x.move_hand with hhanded | ⟨m, hhand, hidle, hhanded⟩
    · rwa [hhanded]
    · rw [hhanded]
      refine ⟨h.accepted, h.taken, ?_, fun _ => congrArg Option.isSome hhand⟩
      rw [underway_of_busy rfl, h.handed, underway_of_idle hidle, List.append_nil]
      exact congrArg (x.consumed ++ ·.toList) hhand.symm
  | finish died =>
    rcases x.move_finish died with hdone | ⟨m, hhand, hbusy, hdone⟩
    · rwa [hdone]
    · rw [hdone]
      refine ⟨h.accepted, ?_, ?_, nofun⟩
      · rw [h.taken, hhand]
        exact (List.append_nil _).symm
      · rw [underway_of_idle rfl, h.handed, underway_of_busy hbusy, hhand]
        exact (List.append_nil _).symm
  | stop =>
    rw [x.move_stop]
    exact ⟨h.accepted, h.taken, h.handed, h.busy⟩

/-- And so does any number of them. -/
theorem Sound.run (moves : List Queue.Move) : (x.run moves).Sound := by
  induction moves generalizing x with
  | nil => exact h
  | cons a moves ih => exact ih (h.move a)

end Sound

/-! ## Order -/

/-- The worker handles messages in the order in which they were accepted. -/
structure Fifo (x : Ledger) : Prop where
  ordered : x.handed <+: x.accepted
  once : ∀ m, x.handed.count m ≤ x.accepted.count m
  /-- It is done with all it started to handle, but perhaps the last one. -/
  single : x.handed = x.consumed ∨
    ∃ m, x.queue.handling = true ∧ x.queue.inHand = some m ∧ x.handed = x.consumed ++ [m]
  /-- Nothing is lost. -/
  accounted : x.handed ++ x.held ++ x.queue.waiting = x.accepted

theorem Sound.fifo {x : Ledger} (h : x.Sound) : x.Fifo := by
  have haccounted : x.handed ++ x.held ++ x.queue.waiting = x.accepted := by
    rw [h.accepted, h.taken, h.handed, List.append_assoc x.consumed]
    have hinHand : x.underway ++ x.held = x.queue.inHand.toList := by
      unfold underway held
      cases x.queue.handling <;> simp
    rw [hinHand]
  have hordered : x.handed <+: x.accepted := by
    rw [← haccounted, List.append_assoc]
    exact List.prefix_append _ _
  refine ⟨hordered, fun m => hordered.sublist.count_le m, ?_, haccounted⟩
  cases hbusy : x.queue.handling with
  | false =>
    left
    rw [h.handed, underway_of_idle hbusy, List.append_nil]
  | true =>
    right
    obtain ⟨m, hm⟩ := Option.isSome_iff_exists.mp (h.busy hbusy)
    refine ⟨m, rfl, hm, ?_⟩
    rw [h.handed, underway_of_busy hbusy, hm]
    rfl

theorem move_name (x : Ledger) (a : Queue.Move) : (x.move a).queue.name = x.queue.name := by
  cases a with
  | put m => rcases x.move_put m with h | ⟨h, -⟩ <;> rw [h]
  | take => rcases x.move_take with h | ⟨m, rest, -, -, -, -, h⟩ <;> rw [h]
  | hand => rcases x.move_hand with h | ⟨m, -, -, h⟩ <;> rw [h]; rfl
  | finish died => rcases x.move_finish died with h | ⟨m, -, -, h⟩ <;> rw [h]; rfl
  | stop => rw [x.move_stop]

theorem run_name (x : Ledger) (moves : List Queue.Move) :
    (x.run moves).queue.name = x.queue.name := by
  induction moves generalizing x with
  | nil => rfl
  | cons a moves ih => exact (ih (x.move a)).trans (x.move_name a)

/-- A put that is refused might as well not have been tried. -/
theorem run_refused {x : Ledger} {before : List Queue.Move} {m : Message} {e : QueueError}
    (h : ((x.run before).queue.put m).2 = .error e) (after : List Queue.Move) :
    e = .stopped x.queue.name ∧ x.run (before ++ .put m :: after) = x.run (before ++ after) := by
  rcases (x.run before).queue.put_cases m with hput | hput
  · rw [hput] at h
    cases h
  · rw [hput, x.run_name] at h
    have hkeep : (x.run before).move (.put m) = x.run before := by simp only [move, hput]
    refine ⟨(Except.error.inj h).symm, ?_⟩
    rw [run_append, run_append]
    change ((x.run before).move (.put m)).run after = _
    rw [hkeep]

/-- What anybody may do leaves the worker to itself. -/
theorem run_open {x : Ledger} {moves : List Queue.Move} (h : ∀ a ∈ moves, a.isOpen = true) :
    (x.run moves).queue.inHand = x.queue.inHand ∧
      (x.run moves).queue.handling = x.queue.handling := by
  induction moves generalizing x with
  | nil => exact ⟨rfl, rfl⟩
  | cons a moves ih =>
    have hmove : (x.move a).queue.inHand = x.queue.inHand ∧
        (x.move a).queue.handling = x.queue.handling := by
      cases a with
      | put m => rcases x.move_put m with hput | ⟨hput, -⟩ <;> rw [hput] <;> exact ⟨rfl, rfl⟩
      | stop =>
        rw [x.move_stop]
        exact ⟨rfl, rfl⟩
      | take | hand | finish => exact absurd (h _ List.mem_cons_self) Bool.false_ne_true
    have hrest := ih (x := x.move a) fun b hb => h b (List.mem_cons_of_mem _ hb)
    exact ⟨hrest.1.trans hmove.1, hrest.2.trans hmove.2⟩

end Ledger

/-! ## The queues of a world -/

/-- The message that the event is about, its queue, and what became of it. -/
def Event.custody? : Event S → Option (QueueId S × Stage × Message)
  | .accepted q m => some (q, .accepted, m)
  | .taken q m => some (q, .taken, m)
  | .handed q m => some (q, .handed, m)
  | .consumed q m => some (q, .consumed, m)
  | _ => none

/-- The messages of a queue that something became of, in order. -/
def listed (q : QueueId S) (stage : Stage) : List (Event S) → List Message :=
  readOff fun e => e.custody?.bind fun (q', stage', m) =>
    if q' = q ∧ stage' = stage then some m else none

/-- What the journal and a queue tell of the queue's messages. -/
def World.ledger (w : World S) (q : QueueId S) : Ledger where
  queue := w.queue q
  accepted := listed q .accepted w.journal
  taken := listed q .taken w.journal
  handed := listed q .handed w.journal
  consumed := listed q .consumed w.journal

section Ledger

variable (w : World S) (q : QueueId S)

theorem listed_note {e : Event S} (h : ∀ stage m, e.custody? ≠ some (q, stage, m))
    (stage : Stage) : listed q stage (w.note e).journal = listed q stage w.journal := by
  refine (readOff_cons _ e w.journal).trans ?_
  rcases hcustody : e.custody? with _ | ⟨q', stage', m⟩
  · exact List.append_nil _
  · have hne : q' ≠ q := fun heq => h stage' m (heq ▸ hcustody)
    simp [hne, listed]

/-- What is about no message of the queue leaves the queue's ledger as it is. -/
theorem ledger_note {e : Event S} (h : ∀ stage m, e.custody? ≠ some (q, stage, m)) :
    (w.note e).ledger q = w.ledger q := by
  simp only [World.ledger, listed_note w q h]
  rfl

theorem ledger_setQueue_of_ne {q' : QueueId S} (h : q' ≠ q) (x : Queue) :
    (w.setQueue q' x).ledger q = w.ledger q := by
  unfold World.ledger
  rw [w.queue_setQueue_of_ne h]
  rfl

theorem ledger_setQueue (x : Queue) :
    (w.setQueue q x).ledger q = { w.ledger q with queue := x } := by
  unfold World.ledger
  rw [w.queue_setQueue_self]
  rfl

/-- What becomes of a message of the queue is put on its list. -/
theorem ledger_note_self {e : Event S} {stage : Stage} {m : Message}
    (h : e.custody? = some (q, stage, m)) : (w.note e).ledger q = (w.ledger q).add m stage := by
  have hlisted (stage' : Stage) : listed q stage' (w.note e).journal =
      listed q stage' w.journal ++ if stage = stage' then [m] else [] := by
    refine (readOff_cons _ e w.journal).trans ?_
    rw [h]
    by_cases hstage : stage = stage' <;> simp [hstage, listed]
  unfold World.ledger
  rw [hlisted, hlisted, hlisted, hlisted]
  cases stage <;> simp [Ledger.add, World.note, World.queue]

end Ledger

/-- What anybody may do is done to the queue. -/
def Stirs (q : QueueId S) (w w' : World S) : Prop :=
  ∃ moves, (∀ a ∈ moves, a.isOpen = true) ∧ w'.ledger q = (w.ledger q).run moves

theorem stirs_of_ledger {q : QueueId S} {w w' : World S} (h : w'.ledger q = w.ledger q) :
    Stirs q w w' :=
  ⟨[], nofun, h⟩

theorem stirs_move {q : QueueId S} {w w' : World S} {a : Queue.Move} (hopen : a.isOpen = true)
    (h : w'.ledger q = (w.ledger q).move a) : Stirs q w w' :=
  ⟨[a], List.forall_mem_singleton.mpr hopen, h⟩

theorem composes_stirs (q : QueueId S) : Composes (Stirs q) where
  refl w := stirs_of_ledger rfl
  trans := by
    rintro w₁ w₂ w₃ ⟨moves, hopen, hmoves⟩ ⟨more, hmore, hrest⟩
    refine ⟨moves ++ more, fun a ha => (List.mem_append.mp ha).elim (hopen a) (hmore a), ?_⟩
    rw [hrest, hmoves, Ledger.run_append]

/-- A change of another queue, and the note of it, is nothing to the queue. -/
theorem ledger_elsewhere (w : World S) {q q' : QueueId S} (h : q' ≠ q) (x : Queue) {e : Event S}
    {stage : Stage} {m : Message} (he : e.custody? = some (q', stage, m)) :
    ((w.setQueue q' x).note e).ledger q = w.ledger q := by
  refine (ledger_note _ q fun stage' m' heq => ?_).trans (ledger_setQueue_of_ne w q h x)
  rw [he] at heq
  exact h (congrArg Prod.fst (Option.some.inj heq))

/-- A change of the queue, and the note of it. -/
theorem ledger_here (w : World S) (q : QueueId S) (x : Queue) {e : Event S} {stage : Stage}
    {m : Message} (he : e.custody? = some (q, stage, m)) :
    ((w.setQueue q x).note e).ledger q = ({ w.ledger q with queue := x } : Ledger).add m stage := by
  rw [ledger_note_self _ q he, ledger_setQueue]

section Calls

variable (app : Application S) (q : QueueId S)

theorem put_stirs (calls : Calls S) (q' : QueueId S) (m : Message) :
    Effect.Within (Stirs q) (perform app calls (.put q' m)) := by
  intro w
  unfold perform
  dsimp only
  rcases (w.queue q').put_cases m with h | h
  · rw [h]
    by_cases hq : q' = q
    · subst hq
      refine stirs_move (a := .put m) rfl ((ledger_here w q' _ rfl).trans ?_)
      have hput : (w.ledger q').queue.put m = _ := h
      simp only [Ledger.move, hput]
    · exact stirs_of_ledger (ledger_elsewhere w hq _ rfl)
  · rw [h]
    dsimp only
    rw [w.setQueue_queue]
    exact (composes_stirs q).refl w

theorem stopQueue_stirs (calls : Calls S) (q' : QueueId S) :
    Effect.Within (Stirs q) (perform app calls (.stopQueue q')) := by
  intro w
  by_cases hq : q' = q
  · subst hq
    exact stirs_move (a := .stop) rfl (ledger_setQueue w q' _)
  · exact stirs_of_ledger (ledger_setQueue_of_ne w q hq _)

/-- User code does to a queue what anybody may do, if the calls that it makes do. -/
theorem perform_stirs {calls : Calls S} (hcalls : ∀ r c, Effect.Within (Stirs q) (calls r c))
    (request : Request S) : Effect.Within (Stirs q) (perform app calls request) := by
  cases request with
  | call r c => exact hcalls r c
  | put q' m => exact put_stirs app q calls q' m
  | stopQueue q' => exact stopQueue_stirs app q calls q'
  | _ => exact fun w => stirs_of_ledger rfl

theorem callWithin_stirs (depth : Nat) (r : RunnerId S) (c : Call S) :
    Effect.Within (Stirs q) (callWithin app depth r c) := by
  have hR := (composes_stirs q).sequential
  have hrefuse (r : RunnerId S) : Effect.Within (Stirs q) (refuse r) :=
    fun w => stirs_of_ledger (ledger_note w q nofun)
  induction depth generalizing r c with
  | zero => exact hrefuse r
  | succ depth ih =>
    have hprimitives : Primitives app (callWithin app depth) r (Effect.Within (Stirs q)) := {
      perform := perform_stirs app q ih
      look := (composes_stirs q).look r
      modify := fun f w => stirs_of_ledger rfl
      note := fun e he w => stirs_of_ledger (ledger_note w q fun stage m heq => by
        cases e <;> cases he <;> cases heq) }
    exact hR.callWithin (hrefuse r) (hprimitives.occupy hR c)

theorem call_stirs (r : RunnerId S) (c : Call S) : Effect.Within (Stirs q) (call app r c) :=
  callWithin_stirs app q S.runners r c

end Calls

/-! ## Deliveries -/

section Deliveries

variable (app : Application S) (q : QueueId S)

/-- The queue is moved, if its worker handles nothing now; and it handles nothing afterwards. -/
def Works (w w' : World S) : Prop :=
  (w.queue q).handling = false → (w'.queue q).handling = false ∧
    ∃ moves, w'.ledger q = (w.ledger q).run moves

theorem composes_works : Composes (Works q) where
  refl w h := ⟨h, [], rfl⟩
  trans := by
    intro w₁ w₂ w₃ h₁₂ h₂₃ hidle
    obtain ⟨hidle₂, moves, hmoves⟩ := h₁₂ hidle
    obtain ⟨hidle₃, more, hmore⟩ := h₂₃ hidle₂
    exact ⟨hidle₃, moves ++ more, by rw [hmore, hmoves, Ledger.run_append]⟩

variable {q}

theorem Stirs.works {w w' : World S} (h : Stirs q w w') : Works q w w' := by
  intro hidle
  obtain ⟨moves, hopen, hmoves⟩ := h
  have hqueue : w'.queue q = ((w.ledger q).run moves).queue := congrArg Ledger.queue hmoves
  refine ⟨?_, moves, hmoves⟩
  rw [hqueue, (Ledger.run_open hopen).2]
  exact hidle

variable (q)

theorem takeNext_works (q' : QueueId S) : Effect.Within (Works q) (takeNext q') := by
  intro w
  unfold takeNext
  rcases (w.queue q').take?_cases with h | ⟨m, rest, -, -, -, -, h⟩
  · rw [h]
    exact (composes_works q).refl w
  · rw [h]
    by_cases hq : q' = q
    · subst hq
      intro hidle
      refine ⟨?_, [.take], (ledger_here w q' _ rfl).trans ?_⟩
      · exact (congrArg Queue.handling (w.queue_setQueue_self q' _)).trans hidle
      · have htake : (w.ledger q').queue.take? = _ := h
        simp only [Ledger.run, List.foldl_cons, List.foldl_nil, Ledger.move, htake]
    · exact (stirs_of_ledger (ledger_elsewhere w hq _ rfl)).works

/-- While its worker handles a message, anybody may go on using the queue. -/
theorem hand_works {w w₂ : World S} {m : Message} (hhand : (w.queue q).inHand = some m)
    (hexec : Stirs q ((w.setQueue q (w.queue q).start).note (.handed q m)) w₂) (died : Bool) :
    Works q w ((w₂.setQueue q ((w₂.queue q).finish died)).note (.consumed q m)) := by
  intro hidle
  obtain ⟨moves, hopen, hmoves⟩ := hexec
  rw [ledger_here w q _ (e := .handed q m) rfl] at hmoves
  have hstart : (w.ledger q).move .hand =
      ({ w.ledger q with queue := (w.queue q).start } : Ledger).add m .handed := by
    have hhand' : (w.ledger q).queue.inHand = some m := hhand
    have hidle' : (w.ledger q).queue.handling = false := hidle
    simp only [Ledger.move, hhand', hidle']
    rfl
  rw [← hstart] at hmoves
  have hqueue : w₂.queue q = (((w.ledger q).move .hand).run moves).queue :=
    congrArg Ledger.queue hmoves
  have hkept := Ledger.run_open (x := (w.ledger q).move .hand) hopen
  rw [← hqueue, hstart] at hkept
  have hhand₂ : (w₂.ledger q).queue.inHand = some m := hkept.1.trans hhand
  have hbusy₂ : (w₂.ledger q).queue.handling = true := hkept.2
  refine ⟨congrArg Queue.handling (w₂.queue_setQueue_self q _),
    [.hand] ++ moves ++ [.finish died], ?_⟩
  rw [ledger_here w₂ q _ (e := .consumed q m) rfl, Ledger.run_append, Ledger.run_append]
  change _ = (((w.ledger q).move .hand).run moves).move (.finish died)
  rw [← hmoves]
  simp only [Ledger.move, hhand₂, hbusy₂]
  rfl

theorem handleTaken_works (q' : QueueId S) : Effect.Within (Works q) (handleTaken app q') := by
  intro w
  unfold handleTaken
  cases hhand : (w.queue q').inHand with
  | none => exact (composes_works q).refl w
  | some m =>
    dsimp only
    have hexec := (composes_stirs q).sequential.exec app (call app)
      (perform_stirs app q (call_stirs app q)) (app.consumer q' m)
      ((w.setQueue q' (w.queue q').start).note (.handed q' m))
    generalize exec app (call app) (app.consumer q' m) _ = result at hexec ⊢
    obtain ⟨receipt, w₂⟩ := result
    by_cases hq : q' = q
    · subst hq
      exact hand_works q' hhand hexec _
    · refine (composes_works q).trans ((composes_works q).trans ?_ hexec.works) ?_
      · exact (stirs_of_ledger (ledger_elsewhere w hq _ rfl)).works
      · exact (stirs_of_ledger (ledger_elsewhere w₂ hq _ rfl)).works

/-- **All that is done to a queue** from outside of calls are moves, one after another. -/
theorem Operation.apply_moves (o : Operation S) (w : World S) : Works q w (o.apply app w) := by
  cases o with
  | request request => exact (perform_stirs app q (call_stirs app q) request w).works
  | inquire inquiry =>
    exact ((composes_stirs q).sequential.inquire app (call app)
      (perform_stirs app q (call_stirs app q)) inquiry w).works
  | take q' => exact takeNext_works q q' w
  | hand q' => exact handleTaken_works app q q' w

/-- And so is all that is done in a run. -/
theorem operations_works (w : World S) (operations : List (Operation S)) :
    Works q w (operations.foldl (Operation.apply app) w) :=
  (composes_works q).operations (Operation.apply_moves app q) operations w

/-- From the queue's start. -/
theorem exists_moves {name : String} {w : World S} (hjournal : w.journal = [])
    (hqueue : w.queue q = { name }) (operations : List (Operation S)) :
    ∃ moves, (operations.foldl (Operation.apply app) w).ledger q =
      (Ledger.fresh name).run moves := by
  have hfresh : w.ledger q = Ledger.fresh name := by
    unfold World.ledger
    rw [hjournal, hqueue]
    rfl
  obtain ⟨-, moves, hmoves⟩ := operations_works app q w operations
    (congrArg Queue.handling hqueue)
  exact ⟨moves, hfresh ▸ hmoves⟩

/-- **First in, first out, and exactly once.** Whatever happens to a queue, and in whatever order,
the messages that its worker starts to handle are the first ones of those that the queue accepted,
one at a time; after them comes the one that the worker took out and has not started to handle, and
after that those that wait. A put that is refused might as well not have been tried.

All that an application does with the queue, also from within the code that handles its messages
and however that code ends, is something that can happen to it. -/
theorem handled_in_order (name : String) :
    (∀ moves, ((Ledger.fresh name).run moves).Fifo) ∧
      (∀ before m e after, (((Ledger.fresh name).run before).queue.put m).2 = .error e →
        e = .stopped name ∧ (Ledger.fresh name).run (before ++ .put m :: after) =
          (Ledger.fresh name).run (before ++ after)) ∧
      (∀ w : World S, w.journal = [] → w.queue q = { name } →
        ∀ operations : List (Operation S), ∃ moves,
          (operations.foldl (Operation.apply app) w).ledger q = (Ledger.fresh name).run moves) ∧
      ∀ (calls : Calls S) (m : Message) (w : World S) (e : QueueError),
        (perform app calls (.put q m) w).1 = .error e → (perform app calls (.put q m) w).2 = w := by
  refine ⟨fun moves => ((Ledger.sound_fresh name).run moves).fifo, fun before m e after h => ?_,
    fun w hjournal hqueue => exists_moves app q hjournal hqueue, fun calls m w e h => ?_⟩
  · exact Ledger.run_refused h after
  · unfold perform at h ⊢
    dsimp only at h ⊢
    rcases (w.queue q).put_cases m with hput | hput
    · rw [hput] at h
      cases h
    · rw [hput]
      exact w.setQueue_queue q

end Deliveries

/-! ## A day in the postroom -/

/-- A letter and a circular come in, and are sorted. A torn letter comes in while the first copy is
in hand, and the postroom closes. -/
def Postroom.day : List (Operation Postroom.signature) :=
  [.request (.put Postroom.tray (Postroom.letter "bill")),
    .request (.put Postroom.tray Postroom.circular),
    .take Postroom.tray, .hand Postroom.tray, .take Postroom.tray, .hand Postroom.tray,
    .take Postroom.tray, .request (.put Postroom.tray Postroom.torn),
    .request (.stopQueue Postroom.tray), .hand Postroom.tray]

/-- In the postroom the copies wait behind what was there before them; what comes after closing time
is refused. -/
theorem handled_in_order_in_postroom :
    Postroom.start.journal = [] ∧ Postroom.start.queue Postroom.tray = { name := "tray" } ∧
      (∃ moves, (Postroom.day.foldl (Operation.apply Postroom.application)
          Postroom.start).ledger Postroom.tray = (Ledger.fresh "tray").run moves) ∧
      ((Postroom.day.foldl (Operation.apply Postroom.application)
          Postroom.start).ledger Postroom.tray).handed =
        [Postroom.letter "bill", Postroom.circular, Postroom.letter "copy"] ∧
      ((Postroom.day.foldl (Operation.apply Postroom.application)
          Postroom.start).ledger Postroom.tray).queue.waiting =
        [Postroom.letter "copy", Postroom.torn] ∧
      (Ledger.fresh "tray").run ([.put Postroom.torn, .stop] ++ [.put Postroom.parcel, .hand]) =
        (Ledger.fresh "tray").run ([.put Postroom.torn, .stop] ++ [.hand]) := by
  have horder := handled_in_order Postroom.application Postroom.tray "tray"
  refine ⟨rfl, rfl, horder.2.2.1 Postroom.start rfl rfl Postroom.day, by decide +kernel,
    by decide +kernel, ?_⟩
  exact (horder.2.1 [.put Postroom.torn, .stop] Postroom.parcel (.stopped "tray") [.hand]
    rfl).2

end UseCaseEngine
