import UseCaseEngine.Model.Build
import UseCaseEngine.Run.Call

/-!
# An inn

A guest orders, is served while he is hungry, and pays. Soup may be served instead of the dish, and
the last bowl instead of the soup. There is a riddle that goes round in a circle, and a dessert that
waits for a coffee nobody brings. Guests complain, are in a hurry or ask for more at any time, and
all of them are led back into the meal; after a fire, somebody is to be rescued.
-/

namespace UseCaseEngine.Inn

/-- One runner for one model. The state tells whether the guest is hungry. -/
abbrev signature : Signature where
  State := Bool
  ModelName := Unit
  HookName := Empty
  PublisherName := Empty
  runners := 1
  queues := 0

/-- The runner. -/
def waiter : RunnerId signature := ⟨0, Nat.one_pos⟩

/-- The type of the message that orders something. -/
def orderType : MessageType := .root "Order"

/-- The type of the message that has something served. -/
def serveType : MessageType := .root "Serve"

/-- The type of the message that pays. -/
def payType : MessageType := .root "Pay"

/-- The type of the message that asks the riddle. -/
def riddleType : MessageType := .root "Riddle"

/-- The type of the message that has a dessert served. -/
def dessertType : MessageType := .root "Dessert"

/-- The type of the message that complains. -/
def complainType : MessageType := .root "Complain"

/-- The type of the message that leaves. -/
def leaveType : MessageType := .root "Leave"

/-- The type of the message that is in a hurry. -/
def rushType : MessageType := .root "Rush"

/-- The type of the message that asks for the bill. -/
def billType : MessageType := .root "Bill"

/-- The type of the message that asks for more. -/
def moreType : MessageType := .root "More"

/-- The type of the message that raises the alarm. -/
def alarmType : MessageType := .root "Alarm"

/-- The type of the failure that is a fire. -/
def fireType : MessageType := .extending "Fire" .error

/-- The message of a type that says no more. -/
def say (type : MessageType) : Message := .plain type ""

/-- The guest is hungry. -/
def isHungry : Guard signature := .ask .readState .done

/-- The model. -/
def spec : ModelSpec (code signature) :=
  { name := "inn"
    useCases := [
      { name := "Dine"
        flows := [
          { steps := [
              .on "Order" orderType,
              (StepSpec.on "Serve" serveType).reactWhile isHungry,
              .on "Pay" payType] },
          { name := "Soup"
            position := some (.insteadOf "Serve")
            steps := [.on "Serve soup" serveType] },
          { name := "Last bowl"
            position := some (.insteadOf "Serve soup")
            steps := [.on "Serve the last bowl" serveType] },
          { name := "Hen"
            position := some (.insteadOf "Lay")
            steps := [.on "Hatch" riddleType] },
          { name := "Egg"
            position := some (.insteadOf "Hatch")
            steps := [.on "Lay" riddleType] },
          { name := "Dessert"
            position := some (.after ["Serve", "Bring coffee"])
            steps := [.on "Serve dessert" dessertType] },
          { name := "Complaint"
            position := some .anytime
            steps := [
              (StepSpec.on "Complain" complainType).reacting (.continueAt "Order"),
              .on "Walk out" leaveType] },
          { name := "Haste"
            position := some .anytime
            steps := [(StepSpec.on "Rush" rushType).reacting (.continueAt "Order")] },
          { name := "Bill"
            steps := [.on "Ask for the bill" billType] },
          { name := "Seconds"
            position := some .anytime
            steps := [
              (StepSpec.on "Ask for more" moreType).reacting (.continueAt "Pay"),
              .on "Roll out" leaveType] },
          { name := "Fire"
            position := some .anytime
            steps := [(StepSpec.on "Raise the alarm" alarmType).reacting (.continueAt "Rescue")] },
          { name := "Help"
            position := some .anytime
            steps := [.onFailure "Rescue" fireType] }] }] }

/-- The application. -/
def application : Application signature where
  model _ := spec.assemble
  hook := Empty.elim
  publisher := Empty.elim
  consumer q := Fin.elim0 q

/-- A guest came in, hungry or not. -/
def start (hungry : Bool) : World signature where
  state := hungry
  runners := #v[{}]
  queues := ⟨#[], Array.size_empty⟩

/-- The world after a guest came in and some calls were made. -/
def after (hungry : Bool) (calls : List (Call signature)) : World signature :=
  calls.foldl (fun w c => (call application waiter c w).2) (start hungry)

end UseCaseEngine.Inn
