import UseCaseEngine.Model.Build
import UseCaseEngine.Run.Request
import UseCaseEngine.Text.Blank

/-!
# A shopping cart

Items are added until the cart is full; blank ones are rejected. A full cart can be paid for, and
then the system says thanks.

* **The cart** (`add`, `reject`): blank items fail, with a message that the next flow takes up.
* **The model** (`spec`, by `shopping_cart`): an item is added as long as there is room; a rejected
  item may come up at any time.
-/

namespace UseCaseEngine

/-- A part of a state that can be read and replaced. -/
structure Slot (σ α : Type) where
  get : σ → α
  put : α → σ → σ
  get_put : ∀ a s, get (put a s) = a

/-- The contents of a cart. -/
structure Cart where
  items : List String := []
  rejected : List String := []
  deriving DecidableEq, Repr

namespace Cart

variable {S : Signature}

/-- How many items a cart takes. -/
def capacity : Nat := 10

/-- The type of the message that adds an item. -/
def addItemType : MessageType := .root "AddItem"

/-- The type of the message that pays for the items. -/
def checkoutType : MessageType := .root "Checkout"

/-- The type of the failure to add an item. -/
def invalidItemType : MessageType := .extending "InvalidItem" .error

/-- Adds an item. -/
def addItem (item : String) : Message := ⟨addItemType, .record, item⟩

/-- Pays. -/
def checkout : Message := ⟨checkoutType, .unit, ""⟩

/-- An item cannot be added. -/
def invalidItem (item : String) : Message := ⟨invalidItemType, .record, item⟩

/-- The text of a record of the given type. -/
def field? (type : MessageType) (m : Message) : Option String :=
  if m.form == .record && m.type.name == type.name then some m.payload else none

/-- The item that a message names; none is the empty text. -/
def itemOf (m : Message) : String := (field? addItemType m).getD ""

/-- The cart has room for another item. -/
def hasRoom (c : Cart) : Bool := c.items.length < capacity

/-- The cart with an item added. -/
def add (c : Cart) (item : String) : Cart := { c with items := c.items ++ [item] }

/-- The cart with an item rejected. -/
def reject (c : Cart) (item : String) : Cart := { c with rejected := c.rejected ++ [item] }

/-- The cart can take another item. -/
def roomGuard (slot : Slot S.State Cart) : Guard S :=
  .ask (I := guardInterface S) Request.readState fun s => .done (hasRoom (slot.get s))

/-- Adds the item that a message names, or fails if it is blank. -/
def addReaction (slot : Slot S.State Cart) (m : Message) : Action S Output :=
  if Text.isBlankText (itemOf m) then .done (.error ⟨invalidItem (itemOf m)⟩)
  else do
    let s : S.State ← Action.request .readState
    Action.request (.writeState (slot.put ((slot.get s).add (itemOf m)) s))
    return .ok none

/-- Keeps the item that could not be added. -/
def rejectReaction (slot : Slot S.State Cart) (m : Message) : Action S Output :=
  match field? invalidItemType m with
  | none => .done (.ok none)
  | some item => do
    let s : S.State ← Action.request .readState
    Action.request (.writeState (slot.put ((slot.get s).reject item) s))
    return .ok none

/-- The model, given where the cart is kept. -/
def spec (slot : Slot S.State Cart) : ModelSpec (code S) :=
  { name := "cart"
    useCases := [{
      name := "Shop"
      flows := [
        { steps := [
            ((StepSpec.on "Add item" addItemType).reactWhile (roomGuard slot)).reacting
              (.function (addReaction slot))] },
        { name := "Checkout"
          steps := [.on "Pay" checkoutType, .system "Say thanks"] },
        { name := "Reject invalid items"
          position := some .anytime
          steps := [
            (StepSpec.onFailure "Reject item" invalidItemType).reacting
              (.function (rejectReaction slot)),
            (StepSpec.system "Keep shopping").reacting (.continueAfter "Add item")] }] }] }

end Cart

end UseCaseEngine
