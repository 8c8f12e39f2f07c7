import UseCaseEngine.Example.Cart
import UseCaseEngine.Run.Call

/-!
# A store

One customer with one cart, and nothing else.
-/

namespace UseCaseEngine.Store

/-- One runner for one model. The state is the cart. -/
abbrev signature : Signature where
  State := Cart
  ModelName := Unit
  HookName := Empty
  PublisherName := Empty
  runners := 1
  queues := 0

/-- The runner. -/
def customer : RunnerId signature := ⟨0, Nat.one_pos⟩

/-- The cart is all there is. -/
def slot : Slot Cart Cart where
  get c := c
  put c _ := c
  get_put _ _ := rfl

/-- The application. -/
def application : Application signature where
  model _ := (Cart.spec slot).assemble
  hook := Empty.elim
  publisher := Empty.elim
  consumer q := Fin.elim0 q

/-- Nothing happened yet. One system step may be executed at a time. -/
def start : World signature where
  state := {}
  runners := #v[{ settings := { maxContinuations := 1 } }]
  queues := ⟨#[], Array.size_empty⟩

/-- More items than the cart takes, and a blank one among them. -/
def stockUp : List Message :=
  Cart.addItem " " :: (List.range 11).map fun n => Cart.addItem (toString n)

end UseCaseEngine.Store
