import UseCaseEngine.Model.Build
import UseCaseEngine.Run.Call

/-!
# An office

Two clerks pass letters on to each other. A clerk closes when the bell rings, and locks up. The hook
is a clerk's assistant, who does everything in the clerk's place.
-/

namespace UseCaseEngine.Office

/-- A runner for each clerk, who has a model of their own. -/
abbrev signature : Signature where
  State := Unit
  ModelName := Fin 2
  HookName := Unit
  PublisherName := Empty
  runners := 2
  queues := 0

/-- A clerk. -/
def clerk (i : Fin 2) : RunnerId signature := i

/-- The type of the message that ends the day. -/
def bellType : MessageType := .root "Bell"

/-- The type of the message that is passed on. -/
def letterType : MessageType := .root "Letter"

/-- Ends the day. -/
def bell : Message := ⟨bellType, .unit, ""⟩

/-- Is passed on. -/
def letter : Message := ⟨letterType, .unit, ""⟩

/-- Says that somebody was busy. -/
def memo : Message := .plain (.root "Memo") "busy"

/-- The clerk stops working. -/
def close (i : Fin 2) : Reaction (code signature) :=
  .function fun _ => .ask (.inl (.stop (clerk i))) fun _ => .done (.ok none)

/-- The clerk gives a letter to the other one, and publishes the reply. -/
def passOn (i : Fin 2) : Reaction (code signature) :=
  .function fun m => .ask (.inl (.call (clerk (i + 1)) (.react m))) fun
    | .ok reply => .done (.ok reply)
    | .error _ => .done (.ok (some memo))

/-- The model of a clerk. -/
def spec (i : Fin 2) : ModelSpec (code signature) :=
  { name := "desk"
    useCases := [
      { name := "Work"
        flows := [
          { steps := [
              (StepSpec.on "Close" bellType).reacting (close i),
              StepSpec.system "Lock up"] },
          { name := "Mail"
            position := some .anytime
            steps := [(StepSpec.on "Pass on" letterType).reacting (passOn i)] }] }] }

/-- The application. The assistant lets no step react, and has a memo instead. -/
def application : Application signature where
  model i := (spec i).assemble
  hook _ _ _ := .done (.suppress (.ok (some memo)))
  publisher := Empty.elim
  consumer q := Fin.elim0 q

/-- Nothing happened yet. -/
def start : World signature where
  state := ()
  runners := #v[{}, {}]
  queues := ⟨#[], Array.size_empty⟩

/-- The world after several requests. -/
def after (requests : List (Request signature)) : World signature :=
  requests.foldl (fun w q => (perform application (call application) q w).2) start

/-- The first clerk has got a letter. -/
def passedOn : World signature :=
  after [.call (clerk 0) (.run 0), .call (clerk 1) (.run 1), .call (clerk 0) (.react letter)]

/-- The first clerk has closed, and was stopped. -/
def closed : World signature := after [.call (clerk 0) (.run 0), .call (clerk 0) (.react bell)]

/-- The world after the day of the first clerk was recorded, which ends at once. -/
def recorded : World signature :=
  after [.startRecording (clerk 0), .call (clerk 0) (.run 0), .call (clerk 0) (.react bell)]

/-- The first clerk's assistant is there, and no letter has come yet. -/
def assisted : World signature := after [.setHook (clerk 0) (), .call (clerk 0) (.run 0)]

end UseCaseEngine.Office
