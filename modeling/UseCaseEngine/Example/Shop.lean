import UseCaseEngine.Model.Build
import UseCaseEngine.Run.Call

/-!
# A shop

An order is paid for in a use case of its own, and then packed; the warehouse takes parcels while it
is open. A payment may be declined, which the payment itself deals with, or break down, which is
noted by the shop.
-/

namespace UseCaseEngine.Shop

/-- One runner for one model, which has a publisher. The state tells whether the warehouse is
open. -/
abbrev signature : Signature where
  State := Bool
  ModelName := Unit
  HookName := Empty
  PublisherName := Unit
  runners := 1
  queues := 0

/-- The runner. -/
def clerk : RunnerId signature := ⟨0, Nat.one_pos⟩

/-- The type of the message that orders something. -/
def orderType : MessageType := .root "Order"

/-- The type of the message that pays. -/
def payType : MessageType := .root "Pay"

/-- The type of the failure of a payment that is declined. -/
def declinedType : MessageType := .extending "Declined" .error

/-- The type of the failure of a payment that breaks down. -/
def brokenType : MessageType := .extending "Broken" .error

/-- Orders something. -/
def order : Message := .plain orderType ""

/-- Pays with something. -/
def pay (means : String) : Message := .plain payType means

/-- What steps publish. -/
def news (text : String) : Message := .plain (.root "News") text

/-- Cash is accepted and cards are declined; nothing else works. -/
def accept (m : Message) : Output :=
  if m.payload == "cash" then .ok (some (news "receipt"))
  else if m.payload == "card" then .error ⟨.plain declinedType ""⟩
  else .error ⟨.plain brokenType ""⟩

/-- The warehouse is open. -/
def isOpen : Guard signature := .ask .readState .done

/-- The warehouse takes a parcel if it is open. -/
def store (_ : Message) : Action signature CallResult :=
  .ask (.inl .readState) fun
    | true => .done (.ok none)
    | false => .done (.error (.delivery "closed"))

/-- A step's reaction that only publishes something. -/
def publishing (text : String) : Reaction (code signature) :=
  .function fun _ => .done (.ok (some (news text)))

/-- The model. -/
def spec : ModelSpec (code signature) :=
  { name := "shop"
    actors := [{ name := "Warehouse", inbox := some store }]
    useCases := [
      { name := "Sell"
        flows := [
          { steps := [
              ((StepSpec.on "Order" orderType).onlyIf isOpen).reacting (.includeUseCase "Payment"),
              ((StepSpec.system "Pack").publishingTo "Warehouse").reacting (publishing "parcel"),
              (StepSpec.system "Thank").reacting (publishing "thanks")] },
          { name := "Trouble"
            position := some .anytime
            steps := [
              (StepSpec.onFailure "Note" brokenType).reacting (publishing "note"),
              (StepSpec.system "Apologise").reacting (publishing "apology")] }] },
      { name := "Payment"
        flows := [
          { steps := [(StepSpec.on "Pay" payType).reacting (.function fun m => .done (accept m))] },
          { name := "Declined"
            position := some .anytime
            steps := [
              (StepSpec.onFailure "Explain" declinedType).reacting (publishing "reason"),
              (StepSpec.system "Ask again").reacting (.continueAt "Pay")] }] }] }

/-- The application. What is published is not looked at. -/
def application : Application signature where
  model _ := spec.assemble
  hook := Empty.elim
  publisher _ _ := .done ()
  consumer q := Fin.elim0 q

/-- Nothing happened yet. -/
def start : World signature where
  state := true
  runners := #v[{ publisher := some () }]
  queues := ⟨#[], Array.size_empty⟩

/-- Nothing happened yet, and only one system step may be executed at a time. -/
def hurried : World signature :=
  { start with runners := #v[{ publisher := some (), settings := { maxContinuations := 1 } }] }

/-- The world after several requests. -/
def after (requests : List (Request signature)) : World signature :=
  requests.foldl (fun w q => (perform application (call application) q w).2) start

/-- Nothing happened yet but that steps are recorded. -/
def recording : World signature := after [.startRecording clerk]

/-- An order was taken, on record, and then the clerk was stopped. -/
def abandoned : World signature :=
  after [.startRecording clerk, .call clerk (.run ()), .call clerk (.react order), .stop clerk]

end UseCaseEngine.Shop
