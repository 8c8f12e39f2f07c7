import UseCaseEngine.Run.Delivery

/-!
# A postroom

A tray holds the post for one worker. A circular makes two letters, a notice closes the postroom, a
torn letter cannot be dealt with, and over an explosive parcel the worker does not survive.
-/

namespace UseCaseEngine.Postroom

/-- One queue, and nothing else. -/
abbrev signature : Signature where
  State := Unit
  ModelName := Empty
  HookName := Empty
  PublisherName := Empty
  runners := 0
  queues := 1

/-- The queue. -/
def tray : QueueId signature := ⟨0, Nat.one_pos⟩

/-- A letter. -/
def letter (text : String) : Message := .plain (.root "Letter") text

/-- Is copied. -/
def circular : Message := .plain (.root "Circular") ""

/-- Closes the postroom. -/
def notice : Message := .plain (.root "Notice") ""

/-- Cannot be dealt with. -/
def torn : Message := .plain (.root "Torn") ""

/-- Ends the worker. -/
def parcel : Message := .plain (.root "Parcel") ""

/-- What the worker does with the post. -/
def sort (m : Message) : Action signature Receipt :=
  if m = circular then
    .ask (.inl (.put tray (letter "copy"))) fun _ =>
      .ask (.inl (.put tray (letter "copy"))) fun _ => .done (.handled (.ok none))
  else if m = notice then .ask (.inl (.stopQueue tray)) fun _ => .done (.handled (.ok none))
  else if m = torn then .done (.handled (.error (.delivery "torn")))
  else if m = parcel then .done .crashed
  else .done (.handled (.ok (some m)))

/-- The application. -/
def application : Application signature where
  model := Empty.elim
  hook := Empty.elim
  publisher := Empty.elim
  consumer _ := sort

/-- Nothing happened yet. -/
def start : World signature where
  state := ()
  runners := #v[]
  queues := #v[{ name := "tray" }]

end UseCaseEngine.Postroom
