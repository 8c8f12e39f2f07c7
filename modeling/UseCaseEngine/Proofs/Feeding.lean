import UseCaseEngine.Example.Kitchen
import UseCaseEngine.Proofs.Lockstep
import UseCaseEngine.Proofs.Shutdown
import UseCaseEngine.Proofs.Stopping

/-!
# Feeding a runner from a queue

The worker of a queue may hand its messages to a runner, one call after another; what the runner's
own code puts into the queue meanwhile waits for its turn. A call does not depend on what the queue
holds, so it comes to the same if it is made directly, and the queue keeps its messages.

Out of scope: code that looks at the queue itself. No request asks for its size, or whether it was
stopped; only a `put` tells, when it is refused.

* `Besides`: two worlds that differ in what a queue holds, and in what is told of its messages.
* `call_besides`: a call does the same in both.
* `besides_directly`: so does everything, with a direct call in place of each delivery.
* `exists_operations_of_drain`: to drain the queue is to have its worker work.
* `entered_of_handed`: the runner takes the call that delivers a message, as it is in none.
* **`fed_as_called`**: a runner that is fed from a queue does what it does if it is called with the
  accepted messages, in order.
-/

namespace UseCaseEngine

variable {S : Signature}

/-! ## Worlds that differ in a queue -/

namespace Queue

/-- Its worker did not die, and is there unless the queue was stopped. -/
structure Healthy (x : Queue) : Prop where
  survived : x.worker ≠ .crashed
  alive : x.stopped = false → x.worker = .alive

/-- The queues answer alike. -/
structure Alike (x y : Queue) : Prop where
  name : x.name = y.name
  stopped : x.stopped = y.stopped
  left : x.Healthy
  right : y.Healthy

variable {x y : Queue}

/-- A healthy queue refuses messages if it was stopped, and only then. -/
theorem Healthy.closed_iff (h : x.Healthy) : x.Closed ↔ x.stopped = true := by
  constructor
  · rintro (hstopped | hworker)
    · exact hstopped
    · cases hstopped : x.stopped with
      | true => rfl
      | false => exact absurd (h.alive hstopped) hworker
  · exact .inl

theorem Healthy.put (h : x.Healthy) (m : Message) :
    (x.put m).1.Healthy ∧ (x.put m).1.name = x.name ∧ (x.put m).1.stopped = x.stopped := by
  rcases x.put_cases m with hput | hput <;> rw [hput]
  · exact ⟨⟨h.survived, h.alive⟩, rfl, rfl⟩
  · exact ⟨h, rfl, rfl⟩

/-- Queues that are alike answer a put alike, and stay alike. -/
theorem Alike.put (h : x.Alike y) (m : Message) :
    (x.put m).2 = (y.put m).2 ∧ (x.put m).1.Alike (y.put m).1 := by
  obtain ⟨hleft, hname, hstopped⟩ := h.left.put m
  obtain ⟨hright, hname', hstopped'⟩ := h.right.put m
  refine ⟨?_, ⟨hname.trans (h.name.trans hname'.symm),
    hstopped.trans (h.stopped.trans hstopped'.symm), hleft, hright⟩⟩
  by_cases hclosed : x.Closed
  · have hclosed' : y.Closed := by rwa [h.right.closed_iff, ← h.stopped, ← h.left.closed_iff]
    rw [put_of_closed hclosed, put_of_closed hclosed', h.name]
  · have hopen : ¬ y.Closed := by rwa [h.right.closed_iff, ← h.stopped, ← h.left.closed_iff]
    rw [(x.put_eq_ok_iff m).mpr (x.not_closed_iff.mp hclosed),
      (y.put_eq_ok_iff m).mpr (y.not_closed_iff.mp hopen)]

theorem Healthy.stop (h : x.Healthy) :
    x.stop.2 = .ok () ∧ x.stop.1.Healthy ∧ x.stop.1.name = x.name := by
  unfold Queue.stop
  split
  · exact ⟨rfl, h, rfl⟩
  · split
    · exact ⟨rfl, ⟨h.survived, nofun⟩, rfl⟩
    · split
      · exact absurd ‹_› h.survived
      · exact ⟨rfl, ⟨nofun, nofun⟩, rfl⟩

/-- Queues that are alike answer a stop alike, and stay alike. -/
theorem Alike.stop (h : x.Alike y) : x.stop.2 = y.stop.2 ∧ x.stop.1.Alike y.stop.1 := by
  obtain ⟨hanswer, hleft, hname⟩ := h.left.stop
  obtain ⟨hanswer', hright, hname'⟩ := h.right.stop
  refine ⟨hanswer.trans hanswer'.symm, ⟨hname.trans (h.name.trans hname'.symm), ?_, hleft, hright⟩⟩
  rw [stop_stopped, stop_stopped]

end Queue

/-- It tells what became of a message of the queue. -/
def Event.isAbout (q : QueueId S) (e : Event S) : Bool :=
  match e.custody? with
  | some (q', _) => decide (q' = q)
  | none => false

/-- The first world is the second one, but for what the queue holds, and for what is told of
messages that came to it from elsewhere, or left it. -/
structure Besides (q : QueueId S) (w v : World S) : Prop where
  state : w.state = v.state
  runners : w.runners = v.runners
  metrics : w.metrics = v.metrics
  stopwatch : w.stopwatch = v.stopwatch
  elsewhere : ∀ q', q' ≠ q → w.queue q' = v.queue q'
  queue : (w.queue q).Alike (v.queue q)
  /-- All that happened in the second world happened in the first one, -/
  happened : v.journal.Sublist w.journal
  /-- and nothing else but what became of messages of the queue. -/
  besides : w.journal.filter (!·.isAbout q) = v.journal.filter (!·.isAbout q)

section Besides

variable {q : QueueId S} {w v : World S}

theorem besides_refl (h : (w.queue q).Healthy) : Besides q w w :=
  ⟨rfl, rfl, rfl, rfl, fun _ _ => rfl, ⟨rfl, rfl, h, h⟩, List.Sublist.refl _, rfl⟩

variable (h : Besides q w v)
include h

theorem Besides.runner (r : RunnerId S) : w.runner r = v.runner r := by
  unfold World.runner
  rw [h.runners]

theorem Besides.note (e : Event S) : Besides q (w.note e) (v.note e) where
  state := h.state
  runners := h.runners
  metrics := h.metrics
  stopwatch := h.stopwatch
  elsewhere := h.elsewhere
  queue := h.queue
  happened := h.happened.cons_cons e
  besides := by
    simp only [World.note, List.filter_cons, h.besides]

/-- What became of a message of the queue may be told in the first world only. -/
theorem Besides.note_left {e : Event S} (he : e.isAbout q = true) : Besides q (w.note e) v where
  state := h.state
  runners := h.runners
  metrics := h.metrics
  stopwatch := h.stopwatch
  elsewhere := h.elsewhere
  queue := h.queue
  happened := h.happened.cons e
  besides := by
    simp only [World.note, List.filter_cons, he, h.besides]
    rfl

theorem Besides.setRunner (r : RunnerId S) (x : Runner S) :
    Besides q (w.setRunner r x) (v.setRunner r x) :=
  ⟨h.state, by simp only [World.setRunner, h.runners], h.metrics, h.stopwatch, h.elsewhere, h.queue,
    h.happened, h.besides⟩

theorem Besides.setQueue {x y : Queue} (hxy : x.Alike y) :
    Besides q (w.setQueue q x) (v.setQueue q y) where
  state := h.state
  runners := h.runners
  metrics := h.metrics
  stopwatch := h.stopwatch
  elsewhere q' hq' := by
    rw [w.queue_setQueue_of_ne hq'.symm, v.queue_setQueue_of_ne hq'.symm, h.elsewhere q' hq']
  queue := by rwa [w.queue_setQueue_self, v.queue_setQueue_self]
  happened := h.happened
  besides := h.besides

theorem Besides.setQueue_left {x : Queue} (hx : x.Alike (v.queue q)) :
    Besides q (w.setQueue q x) v := by
  have hset := h.setQueue hx
  rwa [v.setQueue_queue] at hset

theorem Besides.setQueue_of_ne {q' : QueueId S} (hq' : q' ≠ q) (x : Queue) :
    Besides q (w.setQueue q' x) (v.setQueue q' x) where
  state := h.state
  runners := h.runners
  metrics := h.metrics
  stopwatch := h.stopwatch
  elsewhere q'' hq'' := by
    by_cases heq : q' = q''
    · subst heq
      rw [w.queue_setQueue_self, v.queue_setQueue_self]
    · rw [w.queue_setQueue_of_ne heq, v.queue_setQueue_of_ne heq, h.elsewhere q'' hq'']
  queue := by
    rw [w.queue_setQueue_of_ne hq', v.queue_setQueue_of_ne hq']
    exact h.queue
  happened := h.happened
  besides := h.besides

end Besides

/-! ## Calls -/

section Calls

variable (app : Application S) (q : QueueId S)

theorem sequential_besides : Sequential (Effect.Lockstep (Besides q)) where
  toChained := chained_lockstep (Besides q)
  state _ _ h := ⟨h.state, h⟩
  look r f _ hf w v h := by
    rw [Effect.run_bind, Effect.run_bind]
    dsimp only [Effect.runner]
    rw [← h.runner r]
    exact hf w w v h

theorem modifyRunner_besides (r : RunnerId S) (f : Runner S → Runner S) :
    Effect.Lockstep (Besides q) (Effect.modifyRunner r f) := by
  intro w v h
  refine ⟨rfl, ?_⟩
  unfold Effect.modifyRunner
  dsimp only
  rw [← h.runner r]
  exact h.setRunner r _

theorem note_besides (e : Event S) : Effect.Lockstep (Besides q) (Effect.note e) :=
  fun _ _ h => ⟨rfl, h.note e⟩

theorem put_besides (calls : Calls S) (q' : QueueId S) (m : Message) :
    Effect.Lockstep (Besides q) (perform app calls (.put q' m)) := by
  intro w v h
  unfold perform
  dsimp only
  by_cases hq : q' = q
  · subst hq
    obtain ⟨hanswer, halike⟩ := h.queue.put m
    rcases (w.queue q').put_cases m with hput | hput <;>
      rcases (v.queue q').put_cases m with hput' | hput' <;>
      rw [hput, hput'] at hanswer halike ⊢
    · exact ⟨rfl, (h.setQueue halike).note _⟩
    · cases hanswer
    · cases hanswer
    · exact ⟨hanswer, h.setQueue halike⟩
  · rw [← h.elsewhere q' hq]
    split
    · exact ⟨rfl, (h.setQueue_of_ne hq _).note _⟩
    · exact ⟨rfl, h.setQueue_of_ne hq _⟩

theorem stopQueue_besides (calls : Calls S) (q' : QueueId S) :
    Effect.Lockstep (Besides q) (perform app calls (.stopQueue q')) := by
  intro w v h
  unfold perform Effect.onQueue
  dsimp only
  by_cases hq : q' = q
  · subst hq
    obtain ⟨hanswer, halike⟩ := h.queue.stop
    exact ⟨hanswer, h.setQueue halike⟩
  · rw [← h.elsewhere q' hq]
    exact ⟨rfl, h.setQueue_of_ne hq _⟩

/-- User code does the same in both worlds, if the calls that it makes do. -/
theorem perform_besides {calls : Calls S}
    (hcalls : ∀ r c, Effect.Lockstep (Besides q) (calls r c)) (request : Request S) :
    Effect.Lockstep (Besides q) (perform app calls request) := by
  cases request with
  | readState => exact (sequential_besides q).state
  | writeState s =>
    exact fun w v h => ⟨rfl, rfl, h.runners, h.metrics, h.stopwatch, h.elsewhere, h.queue,
      h.happened, h.besides⟩
  | call r c => exact hcalls r c
  | stop r | actAs r | setHook r | setPublisher r => exact modifyRunner_besides q r _
  | startRecording r | stopRecording r =>
    exact (sequential_besides q).bind (modifyRunner_besides q r _) fun _ => note_besides q _
  | actingActor r => exact fun w v h => ⟨congrArg Runner.actor (h.runner r), h⟩
  | latestStep r =>
    intro w v h
    unfold perform
    dsimp only
    rw [← h.runner r]
    exact ⟨rfl, h⟩
  | recordedSteps r => exact fun w v h => ⟨congrArg (·.recording.steps) (h.runner r), h⟩
  | put q' m => exact put_besides app q calls q' m
  | stopQueue q' => exact stopQueue_besides app q calls q'
  | sample s =>
    exact fun w v h => ⟨rfl, h.state, h.runners, congrArg (·.record s) h.metrics, h.stopwatch,
      h.elsewhere, h.queue, h.happened, h.besides⟩
  | startTiming =>
    exact fun w v h => ⟨rfl, h.state, h.runners, h.metrics, congrArg Stopwatch.start h.stopwatch,
      h.elsewhere, h.queue, h.happened, h.besides⟩
  | sampleDuration name labels =>
    intro w v h
    unfold perform
    dsimp only
    rw [← h.stopwatch, ← h.metrics]
    exact ⟨rfl, h.state, h.runners, rfl, rfl, h.elsewhere, h.queue, h.happened, h.besides⟩

theorem callWithin_besides (depth : Nat) (r : RunnerId S) (c : Call S) :
    Effect.Lockstep (Besides q) (callWithin app depth r c) := by
  have hΦ := sequential_besides q
  have hrefuse (r : RunnerId S) : Effect.Lockstep (Besides q) (refuse r) :=
    hΦ.refuse fun _ => note_besides q _
  induction depth generalizing r c with
  | zero => exact hrefuse r
  | succ depth ih =>
    have hprimitives : Primitives app (callWithin app depth) r (Effect.Lockstep (Besides q)) := {
      perform := perform_besides app q ih
      look := fun hf w v h => by
        rw [Effect.run_bind, Effect.run_bind]
        dsimp only [Effect.runner]
        rw [← h.runner r]
        exact hf w w v h
      modify := modifyRunner_besides q r
      note := fun e _ => note_besides q e }
    exact hΦ.callWithin (hrefuse r) (hprimitives.occupy hΦ c)

/-- **A call does the same** whatever the queue holds. -/
theorem call_besides (r : RunnerId S) (c : Call S) :
    Effect.Lockstep (Besides q) (call app r c) :=
  callWithin_besides app q S.runners r c

end Calls

/-! ## Deliveries -/

/-- The worker of the queue hands what it takes out to the runner. -/
def Application.Feeds (app : Application S) (q : QueueId S) (r : RunnerId S) : Prop :=
  ∀ m, app.consumer q m = (do return Receipt.handled (← Action.toRunner r m))

/-- It puts a message into the queue, or is done by the queue's worker. -/
def Operation.isOn (q : QueueId S) : Operation S → Bool
  | .request (.put q' _) | .take q' | .hand q' => decide (q' = q)
  | _ => false

/-- The message of the queue that the operation has handled. -/
def Operation.handles (q : QueueId S) (w : World S) : Operation S → List Message
  | .hand q' => if q' = q then (w.queue q).inHand.toList else []
  | _ => []

/-- What is done instead of the operation if the queue's messages go to the runner directly. -/
def Operation.directly (q : QueueId S) (r : RunnerId S) (w : World S) (o : Operation S) :
    List (Operation S) :=
  if o.isOn q then (o.handles q w).map fun m => .request (.call r (.react m)) else [o]

section Deliveries

variable (app : Application S) {q : QueueId S} {r : RunnerId S}

/-- The same for several operations. -/
def directly (q : QueueId S) (r : RunnerId S) : World S → List (Operation S) → List (Operation S)
  | _, [] => []
  | w, o :: rest => o.directly q r w ++ directly q r (o.apply app w) rest

/-- What becomes of a message of the queue is about the queue. -/
theorem isAbout_of_custody? {e : Event S} {stage : Stage} {m : Message}
    (h : e.custody? = some (q, stage, m)) : e.isAbout q = true := by
  unfold Event.isAbout
  rw [h]
  exact decide_eq_true rfl

/-- A message that somebody puts makes no difference. -/
theorem put_besides_left {w v : World S} (h : Besides q w v) (m : Message) :
    Besides q ((Operation.request (.put q m)).apply app w) v := by
  obtain ⟨hhealthy, hname, hstopped⟩ := h.queue.left.put m
  have hset := h.setQueue_left (x := ((w.queue q).put m).1)
    ⟨hname.trans h.queue.name, hstopped.trans h.queue.stopped, hhealthy, h.queue.right⟩
  change Besides q (perform app (call app) (.put q m) w).2 v
  unfold perform
  dsimp only
  rcases (w.queue q).put_cases m with hput | hput <;> rw [hput] at hset ⊢
  · exact hset.note_left (isAbout_of_custody? rfl)
  · exact hset

/-- Nor does one that the worker takes out. -/
theorem takeNext_besides_left {w v : World S} (h : Besides q w v) :
    Besides q (takeNext q w).2 v := by
  unfold takeNext
  rcases (w.queue q).take?_cases with htake | ⟨m, rest, -, -, -, -, htake⟩ <;> rw [htake]
  · exact h
  · have hset := h.setQueue_left (x := { w.queue q with
      waiting := rest, size := (w.queue q).size - 1, inHand := some m })
      ⟨h.queue.name, h.queue.stopped, ⟨h.queue.left.survived, h.queue.left.alive⟩, h.queue.right⟩
    exact hset.note_left (isAbout_of_custody? rfl)

/-- A healthy queue's worker survives what it hands to a runner. -/
theorem Queue.Healthy.finish {x : Queue} (h : x.Healthy) : (x.finish false).Healthy := by
  have hworker : (x.finish false).worker = if x.stopped then .ended else x.worker := rfl
  refine ⟨?_, fun hstopped => ?_⟩
  · rw [hworker]
    split
    · nofun
    · exact h.survived
  · have hopen : x.stopped = false := hstopped
    rw [hworker, hopen, if_neg Bool.false_ne_true]
    exact h.alive hopen

/-- What the worker hands to the runner is a call. -/
theorem handleTaken_of_feeds (hfeeds : app.Feeds q r) {w : World S} {m : Message}
    (hhand : (w.queue q).inHand = some m) :
    (handleTaken app q w).2 =
      (((call app r (.react m) ((w.setQueue q (w.queue q).start).note (.handed q m))).2.setQueue q
        (((call app r (.react m) ((w.setQueue q (w.queue q).start).note (.handed q m))).2.queue
          q).finish false)).note (.consumed q m)) := by
  unfold handleTaken
  rw [hhand]
  dsimp only
  rw [hfeeds m]
  rfl

/-- **Handing a message to the runner** is a call, as far as all else is concerned. -/
theorem handleTaken_besides_left (hfeeds : app.Feeds q r) {w v : World S} (h : Besides q w v)
    {m : Message} (hhand : (w.queue q).inHand = some m) :
    Besides q (handleTaken app q w).2 (call app r (.react m) v).2 := by
  rw [handleTaken_of_feeds app hfeeds hhand]
  have hstart : Besides q ((w.setQueue q (w.queue q).start).note (.handed q m)) v :=
    (h.setQueue_left (x := (w.queue q).start)
      ⟨h.queue.name, h.queue.stopped, ⟨h.queue.left.survived, h.queue.left.alive⟩,
        h.queue.right⟩).note_left (isAbout_of_custody? rfl)
  obtain ⟨-, hcalled⟩ := call_besides app q r (.react m) _ _ hstart
  generalize (call app r (.react m) _).2 = w₂ at hcalled ⊢
  exact (hcalled.setQueue_left (x := (w₂.queue q).finish false)
    ⟨hcalled.queue.name, hcalled.queue.stopped, hcalled.queue.left.finish,
      hcalled.queue.right⟩).note_left (isAbout_of_custody? rfl)

/-- Another queue is the same in both worlds. -/
theorem common_besides {q' : QueueId S} (hq : q' ≠ q) : Common (Besides q) q' where
  queue h := h.elsewhere q' hq
  set x h := h.setQueue_of_ne hq x
  note e _ _ h := h.note e

/-- What has nothing to do with the queue is the same in both worlds. -/
theorem apply_besides {w v : World S} (h : Besides q w v) {o : Operation S}
    (ho : o.isOn q = false) : Besides q (o.apply app w) (o.apply app v) := by
  have hperform := perform_besides app q (call_besides app q)
  cases o with
  | request request => exact (hperform request w v h).2
  | inquire inquiry =>
    exact ((sequential_besides q).inquire app (call app) hperform inquiry w v h).2
  | take q' => exact ((common_besides (of_decide_eq_false ho)).takeNext w v h).2
  | hand q' =>
    exact ((common_besides (of_decide_eq_false ho)).handleTaken app
      (fun _ => (sequential_besides q).exec app (call app) hperform _) w v h).2

/-- **One operation** comes to the same if the queue's messages go to the runner directly. -/
theorem besides_operation (hfeeds : app.Feeds q r) {w v : World S} (h : Besides q w v)
    (o : Operation S) :
    Besides q (o.apply app w) ((o.directly q r w).foldl (Operation.apply app) v) := by
  unfold Operation.directly
  cases ho : o.isOn q with
  | false => exact apply_besides app h ho
  | true =>
    rw [if_pos rfl]
    cases o with
    | request request =>
      cases request with
      | put q' m =>
        obtain rfl : q' = q := of_decide_eq_true ho
        exact put_besides_left app h m
      | _ => cases ho
    | inquire inquiry => cases ho
    | take q' =>
      obtain rfl : q' = q := of_decide_eq_true ho
      exact takeNext_besides_left h
    | hand q' =>
      obtain rfl : q' = q := of_decide_eq_true ho
      unfold Operation.handles
      dsimp only
      rw [if_pos rfl]
      cases hhand : (w.queue q').inHand with
      | none =>
        have hnothing : (handleTaken app q' w).2 = w := by
          unfold handleTaken
          rw [hhand]
        change Besides q' (handleTaken app q' w).2 v
        rwa [hnothing]
      | some m => exact handleTaken_besides_left app hfeeds h hhand

/-- **And so do any number of them.** -/
theorem besides_directly (hfeeds : app.Feeds q r) {w v : World S} (h : Besides q w v)
    (operations : List (Operation S)) :
    Besides q (operations.foldl (Operation.apply app) w)
      ((directly app q r w operations).foldl (Operation.apply app) v) := by
  induction operations generalizing w v with
  | nil => exact h
  | cons o operations ih =>
    rw [directly, List.foldl_append]
    exact ih (besides_operation app hfeeds h o)

/-! ## In what order -/

/-- What anybody may do hands nothing over. -/
theorem Ledger.handed_open {x : Ledger} {moves : List Queue.Move}
    (h : ∀ a ∈ moves, a.isOpen = true) : (x.run moves).handed = x.handed := by
  induction moves generalizing x with
  | nil => rfl
  | cons a moves ih =>
    have hmove : (x.move a).handed = x.handed := by
      cases a with
      | put m => rcases x.move_put m with hput | ⟨hput, -⟩ <;> rw [hput]
      | stop => rw [x.move_stop]
      | take | hand | finish => exact absurd (h _ List.mem_cons_self) Bool.false_ne_true
    exact (ih fun b hb => h b (List.mem_cons_of_mem _ hb)).trans hmove

theorem Stirs.handed {w w' : World S} (h : Stirs q w w') :
    listed q .handed w'.journal = listed q .handed w.journal := by
  obtain ⟨moves, hopen, hmoves⟩ := h
  exact (congrArg Ledger.handed hmoves).trans (Ledger.handed_open hopen)

/-- An operation hands over the message that it has handled. -/
theorem handed_apply (w : World S) (o : Operation S) :
    listed q .handed (o.apply app w).journal = listed q .handed w.journal ++ o.handles q w := by
  have hperform := perform_stirs app q (call_stirs app q)
  cases o with
  | request request => exact (hperform request w).handed.trans (List.append_nil _).symm
  | inquire inquiry =>
    have hstirs := (composes_stirs q).sequential.inquire app (call app) hperform inquiry w
    exact hstirs.handed.trans (List.append_nil _).symm
  | take q' =>
    refine Eq.trans ?_ (List.append_nil _).symm
    change listed q .handed (takeNext q' w).2.journal = _
    unfold takeNext
    rcases (w.queue q').take?_cases with htake | ⟨m, rest, -, -, -, -, htake⟩ <;> rw [htake]
    by_cases hq : q' = q
    · subst hq
      exact congrArg Ledger.handed (ledger_here w q' _ (e := .taken q' m) rfl)
    · exact congrArg Ledger.handed (ledger_elsewhere w hq _ rfl)
  | hand q' =>
    change listed q .handed (handleTaken app q' w).2.journal = _
    unfold handleTaken Operation.handles
    dsimp only
    cases hhand : (w.queue q').inHand with
    | none =>
      dsimp only
      split
      · rename_i hq
        rw [← hq, hhand, Option.toList_none, List.append_nil]
      · exact (List.append_nil _).symm
    | some m =>
      dsimp only
      have hexec := (composes_stirs q).sequential.exec app (call app) hperform (app.consumer q' m)
        ((w.setQueue q' (w.queue q').start).note (.handed q' m))
      generalize exec app (call app) (app.consumer q' m) _ = result at hexec ⊢
      obtain ⟨receipt, w₂⟩ := result
      dsimp only at hexec ⊢
      by_cases hq : q' = q
      · subst hq
        rw [if_pos rfl, hhand]
        have hdone (x : Queue) := congrArg Ledger.handed
          (ledger_here w₂ q' x (e := .consumed q' m) rfl)
        have hstart := congrArg Ledger.handed
          (ledger_here w q' (w.queue q').start (e := .handed q' m) rfl)
        exact (hdone _).trans (hexec.handed.trans hstart)
      · rw [if_neg hq, List.append_nil]
        exact (congrArg Ledger.handed (ledger_elsewhere w₂ hq _ rfl)).trans
          (hexec.handed.trans (congrArg Ledger.handed (ledger_elsewhere w hq _ rfl)))

/-- If nothing but what concerns the queue is done, what is done directly is to call the runner with
each message that is handed over. -/
theorem exists_directly (w : World S) {operations : List (Operation S)}
    (hon : ∀ o ∈ operations, o.isOn q = true) :
    ∃ messages, directly app q r w operations =
        messages.map (fun m => .request (.call r (.react m))) ∧
      listed q .handed (operations.foldl (Operation.apply app) w).journal =
        listed q .handed w.journal ++ messages := by
  induction operations generalizing w with
  | nil => exact ⟨[], rfl, (List.append_nil _).symm⟩
  | cons o operations ih =>
    obtain ⟨messages, hdirectly, hhanded⟩ := ih (o.apply app w) fun o' ho' =>
      hon o' (List.mem_cons_of_mem _ ho')
    refine ⟨o.handles q w ++ messages, ?_, ?_⟩
    · rw [directly, hdirectly, Operation.directly, if_pos (hon o List.mem_cons_self),
        List.map_append]
    · rw [List.foldl_cons, hhanded, handed_apply, List.append_assoc]

/-- To drain the queue is such a sequence of operations. -/
theorem exists_operations_of_drain (limit : Nat) (w : World S) :
    ∃ operations : List (Operation S), (∀ o ∈ operations, o.isOn q = true) ∧
      (drain app q limit w).2 = operations.foldl (Operation.apply app) w := by
  induction limit generalizing w with
  | zero => exact ⟨[], nofun, rfl⟩
  | succ limit ih =>
    have hon : ∀ o ∈ [Operation.take q, .hand q], o.isOn q = true := by simp [Operation.isOn]
    have hdeliver : (deliverNext app q w).2 =
        [Operation.take q, .hand q].foldl (Operation.apply app) w := rfl
    unfold drain
    rw [Effect.run_bind]
    cases (deliverNext app q w).1 with
    | false => exact ⟨[.take q, .hand q], hon, hdeliver⟩
    | true =>
      obtain ⟨operations, hrest, hdrain⟩ := ih (deliverNext app q w).2
      refine ⟨[.take q, .hand q] ++ operations, fun o ho => ?_, ?_⟩
      · exact (List.mem_append.mp ho).elim (hon o) (hrest o)
      · rw [List.foldl_append, ← hdeliver, ← hdrain]
        rfl

/-- When nothing is left, all that was accepted was handed over. -/
theorem Ledger.Sound.handed_of_drained {x : Ledger} (h : x.Sound) (hwaiting : x.queue.waiting = [])
    (hhand : x.queue.inHand = none) : x.handed = x.accepted := by
  rw [h.accepted, h.taken, h.handed, hwaiting, hhand, Ledger.underway_of_idle (h.idle hhand)]
  simp

/-! ## No call is nested -/

/-- A runner that is in no call takes the call that delivers a message. -/
theorem entered_of_handed (hfeeds : app.Feeds q r) {w : World S} {m : Message}
    (hidle : (w.runner r).activity = .idle) (hhand : (w.queue q).inHand = some m) :
    ∃ events, ((Operation.hand q).apply app w).journal =
      events ++ .entered r :: .handed q m :: w.journal := by
  change ∃ events, (handleTaken app q w).2.journal = _
  rw [handleTaken_of_feeds app hfeeds hhand]
  have hidle' : (((w.setQueue q (w.queue q).start).note (.handed q m)).runner r).activity =
      .idle := hidle
  obtain ⟨d, hd⟩ := Nat.exists_eq_succ_of_ne_zero r.pos.ne'
  unfold call
  rw [hd, callWithin_of_idle app d r (.react m) hidle']
  obtain ⟨events, hevents⟩ := occupy_journal app (callWithin_grows app d) (.react m)
    ((w.setQueue q (w.queue q).start).note (.handed q m)) (r := r)
  refine ⟨.consumed q m :: .left r :: events, ?_⟩
  change Event.consumed q m :: (occupy app (callWithin app d) r (.react m) _).2.journal = _
  rw [hevents]
  rfl

/-- A queue that is handed a message replies nothing, or that it was stopped. -/
theorem exec_toQueue (calls : Calls S) (w : World S) (m : Message) :
    (exec app calls (Action.toQueue q m) w).1 = .ok none ∨
      (exec app calls (Action.toQueue q m) w).1 =
        .error (.delivery ("Event queue " ++ (w.queue q).name ++ " is stopped")) := by
  by_cases hclosed : (w.queue q).Closed
  · right
    rw [exec_toQueue_of_closed app q calls hclosed]
  · left
    obtain ⟨hopen, hworker⟩ := (w.queue q).not_closed_iff.mp hclosed
    have hput : (perform app calls (.put q m) w).1 = .ok () := by
      unfold perform
      dsimp only
      rcases (w.queue q).put_cases m with hput | hput
      · rw [hput]
      · have hok := ((w.queue q).put_eq_ok_iff m).mpr ⟨hopen, hworker⟩
        rw [hput] at hok
        cases hok
    unfold Action.toQueue
    refine (congrArg Prod.fst (exec_request_bind app calls (.put q m) _ w)).trans ?_
    rw [hput]
    rfl

/-- **A runner that is fed from a queue** does what it does if it is called directly. Whatever is
done from outside, and whatever code puts into the queue meanwhile, it comes to the same, but for
what the queue holds, if each message that the queue's worker hands over is a call instead. If
nothing is done but to put messages into the queue and to have its worker work, until nothing is
left, as when the queue is drained, then the calls are those with the messages that were accepted,
in order, whatever each of them comes to.

No delivery is a nested call, since the runner is in none when the worker hands a message over; and
code of the runner that has the queue handle a message is told at worst that it was stopped.

This goes for code as `Request` has it, which cannot ask how many messages wait in the queue. -/
theorem fed_as_called (hfeeds : app.Feeds q r) {name : String} {w : World S}
    (hfresh : w.ledger q = Ledger.fresh name) (hidle : (w.runner r).activity = .idle) :
    (∀ operations, Besides q (operations.foldl (Operation.apply app) w)
      ((directly app q r w operations).foldl (Operation.apply app) w)) ∧
    (∀ operations : List (Operation S), (∀ o ∈ operations, o.isOn q = true) →
      ((operations.foldl (Operation.apply app) w).queue q).waiting = [] →
      ((operations.foldl (Operation.apply app) w).queue q).inHand = none →
      Besides q (operations.foldl (Operation.apply app) w)
        ((listed q .accepted (operations.foldl (Operation.apply app) w).journal).foldl
          (fun v m => (call app r (.react m) v).2) w)) ∧
    (∀ operations : List (Operation S), (∀ o ∈ operations, o.isOn q = true) →
      ∀ (limit : Nat) (v : World S),
      (drain app q limit (operations.foldl (Operation.apply app) w)).2 = v →
      (v.queue q).waiting = [] → (v.queue q).inHand = none →
      Besides q v ((listed q .accepted v.journal).foldl
        (fun v m => (call app r (.react m) v).2) w)) ∧
    (∀ (operations : List (Operation S)) (m : Message),
      ((operations.foldl (Operation.apply app) w).queue q).inHand = some m →
      ∃ events, ((operations ++ [Operation.hand q]).foldl (Operation.apply app) w).journal =
        events ++ .entered r :: .handed q m ::
          (operations.foldl (Operation.apply app) w).journal) ∧
    ∀ (calls : Calls S) (v : World S) (m : Message) (label : String),
      (exec app calls (Action.toQueue q m) v).1 ≠ .error (.nestedCall label) := by
  have hqueue : w.queue q = { name } := congrArg Ledger.queue hfresh
  have hsame : Besides q w w := besides_refl (by rw [hqueue]; exact ⟨nofun, fun _ => rfl⟩)
  have hworked (operations : List (Operation S)) (hon : ∀ o ∈ operations, o.isOn q = true)
      (hwaiting : ((operations.foldl (Operation.apply app) w).queue q).waiting = [])
      (hhand : ((operations.foldl (Operation.apply app) w).queue q).inHand = none) :
      Besides q (operations.foldl (Operation.apply app) w)
        ((listed q .accepted (operations.foldl (Operation.apply app) w).journal).foldl
          (fun v m => (call app r (.react m) v).2) w) := by
    have hbesides := besides_directly app hfeeds hsame operations
    obtain ⟨messages, hdirectly, hhanded⟩ := exists_directly app (r := r) w hon
    have hsound : ((operations.foldl (Operation.apply app) w).ledger q).Sound := by
      obtain ⟨-, moves, hmoves⟩ := operations_works app q w operations
        (congrArg Queue.handling hqueue)
      rw [hmoves, hfresh]
      exact (Ledger.sound_fresh name).run moves
    -- In a queue that is worked off, what was handed over is what was accepted.
    have hall : messages =
        listed q .accepted (operations.foldl (Operation.apply app) w).journal := by
      have hnone : listed q .handed w.journal = [] := congrArg Ledger.handed hfresh
      rw [hnone, List.nil_append] at hhanded
      exact hhanded.symm.trans (hsound.handed_of_drained hwaiting hhand)
    rw [hdirectly, List.foldl_map, hall] at hbesides
    exact hbesides
  refine ⟨besides_directly app hfeeds hsame, hworked, fun operations hon limit v hv => ?_,
    fun operations m hhand => ?_, fun calls v m label => ?_⟩
  · obtain ⟨more, hmore, hdrain⟩ := exists_operations_of_drain app (q := q) limit
      (operations.foldl (Operation.apply app) w)
    rw [← hv, hdrain, ← List.foldl_append]
    exact hworked (operations ++ more) fun o ho => (List.mem_append.mp ho).elim (hon o) (hmore o)
  · obtain ⟨-, -, hidle', -⟩ := operations_dormant app (r := r) operations w hidle
    rw [List.foldl_append]
    exact entered_of_handed app hfeeds hidle' hhand
  · rcases exec_toQueue app calls v m (q := q) with h | h <;> rw [h] <;> nofun

end Deliveries

/-! ## A day in the kitchen -/

/-- A dish is to be washed, another one breaks, and the sink is worked off: that the first one is to
be dried comes up meanwhile. -/
def Kitchen.day : List (Operation Kitchen.signature) :=
  [.request (.put Kitchen.sink (Kitchen.task "wash")),
    .request (.put Kitchen.sink (Kitchen.task "break")),
    .take Kitchen.sink, .hand Kitchen.sink, .take Kitchen.sink, .hand Kitchen.sink,
    .take Kitchen.sink, .hand Kitchen.sink]

/-- In the kitchen all is done in the order in which it came up, as if it had been said directly. -/
theorem fed_as_called_in_kitchen :
    Kitchen.application.Feeds Kitchen.sink Kitchen.hand ∧
    Kitchen.ready.ledger Kitchen.sink = Ledger.fresh "sink" ∧
    (Kitchen.ready.runner Kitchen.hand).activity = .idle ∧
    Besides Kitchen.sink (Kitchen.day.foldl (Operation.apply Kitchen.application) Kitchen.ready)
      ([Kitchen.task "wash", Kitchen.task "break", Kitchen.task "dry"].foldl
        (fun v m => (call Kitchen.application Kitchen.hand (.react m) v).2) Kitchen.ready) ∧
    (Kitchen.day.foldl (Operation.apply Kitchen.application) Kitchen.ready).state =
      ["wash", "break", "dry"] := by
  have hfeeds : Kitchen.application.Feeds Kitchen.sink Kitchen.hand := fun _ => rfl
  have hfresh : Kitchen.ready.ledger Kitchen.sink = Ledger.fresh "sink" := by decide +kernel
  have hidle : (Kitchen.ready.runner Kitchen.hand).activity = .idle := by decide +kernel
  have haccepted : listed Kitchen.sink .accepted
      (Kitchen.day.foldl (Operation.apply Kitchen.application) Kitchen.ready).journal =
        [Kitchen.task "wash", Kitchen.task "break", Kitchen.task "dry"] := by decide +kernel
  have hfed := (fed_as_called Kitchen.application hfeeds hfresh hidle).2.1 Kitchen.day
    (by decide) (by decide +kernel) (by decide +kernel)
  rw [haccepted] at hfed
  exact ⟨hfeeds, hfresh, hidle, hfed, by decide +kernel⟩

end UseCaseEngine
