import UseCaseEngine.Run.Call

/-!
# Delivering what waits in queues

A queue's worker takes a message out and then hands it to the queue's consumer; the two are
separate steps, since a message that was taken out counts no longer as waiting. Draining delivers
until nothing waits. Consumers may put messages without end, so draining has a limit.

* **The worker's turn** (`takeNext`, `handleTaken`): one round of the worker's `drain`, with
  `dispatch` as its second half. A consumer's reply or failure is dropped, and its death is the
  worker's.
* **Draining** (`deliverNext`, `drain`, `drainAll`): rounds until nothing is left, of one queue or
  of several in turn.

Out of scope: workers of several queues that handle messages at the same time; one round ends before
the next one begins.
-/

namespace UseCaseEngine

variable {S : Signature} (app : Application S)

/-- The worker of a queue takes a message out, if it is free and one waits. -/
def takeNext (q : QueueId S) : Effect S Unit := fun w =>
  match (w.queue q).take? with
  | some (m, x) => ((), (w.setQueue q x).note (.taken q m))
  | none => ((), w)

/-- The worker of a queue hands the message that it took out to the consumer. Tells whether there
was one. -/
def handleTaken (q : QueueId S) : Effect S Bool := fun w =>
  match (w.queue q).inHand with
  | none => (false, w)
  | some m =>
    let w := (w.setQueue q (w.queue q).start).note (.handed q m)
    let (receipt, w) := exec app (call app) (app.consumer q m) w
    let died := match receipt with
      | .crashed => true
      | .handled _ => false
    (true, (w.setQueue q ((w.queue q).finish died)).note (.consumed q m))

/-- Delivers one message of a queue. Tells whether there was one. -/
def deliverNext (q : QueueId S) : Effect S Bool := do
  takeNext q
  handleTaken app q

/-- Delivers the messages of a queue, also those put meanwhile. Tells whether there were any. -/
def drain (q : QueueId S) : Nat → Effect S Bool
  | 0 => pure false
  | limit + 1 => do
    if ← deliverNext app q then
      let _ ← drain q limit
      return true
    else return false

/-- Drains several queues in order. Tells whether there was anything to deliver. -/
def drainEach (limit : Nat) : List (QueueId S) → Effect S Bool
  | [] => pure false
  | q :: rest => do
    let here ← drain app q limit
    let there ← drainEach limit rest
    return here || there

/-- Drains several queues in order, over and over, until there is nothing to deliver. -/
def drainAll (limit : Nat) (qs : List (QueueId S)) : Nat → Effect S Unit
  | 0 => pure ()
  | rounds + 1 => do
    if ← drainEach app limit qs then drainAll limit qs rounds else pure ()

end UseCaseEngine
