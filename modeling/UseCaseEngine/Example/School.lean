import UseCaseEngine.Model.Build
import UseCaseEngine.Run.Call

/-!
# A school

A lesson includes some practice, and then there is a rest. Pupils exercise as long as they have
strength left, which every exercise takes some of. Who has strength left may also slip away at any
time, and goes straight to the rest.
-/

namespace UseCaseEngine.School

/-- One runner for one model. The state is the strength that is left. -/
abbrev signature : Signature where
  State := Nat
  ModelName := Unit
  HookName := Empty
  PublisherName := Empty
  runners := 1
  queues := 0

/-- The runner. -/
def pupil : RunnerId signature := ⟨0, Nat.one_pos⟩

/-- The type of the message that begins the lesson. -/
def beginType : MessageType := .root "Begin"

/-- The type of the message that ends the lesson. -/
def restType : MessageType := .root "Rest"

/-- The type of the message that asks for an exercise. -/
def exerciseType : MessageType := .root "Exercise"

/-- The type of the message that slips away. -/
def slipType : MessageType := .root "Slip"

/-- The message of a type that says no more. -/
def say (type : MessageType) : Message := .plain type ""

/-- There is strength left. -/
def isKeen : Guard signature := .ask .readState fun strength : Nat => .done (decide (0 < strength))

/-- An exercise takes some strength. -/
def tire : Reaction (code signature) :=
  .function fun _ => .ask (.inl .readState) fun strength : Nat =>
    .ask (.inl (.writeState (strength - 1))) fun _ => .done (.ok none)

/-- The model. -/
def spec : ModelSpec (code signature) :=
  { name := "school"
    useCases := [
      { name := "Learn"
        flows := [{
          steps := [
            (StepSpec.on "Begin" beginType).reacting (.includeUseCase "Practice"),
            .on "Rest" restType] }] },
      { name := "Practice"
        flows := [
          { steps := [((StepSpec.on "Exercise" exerciseType).reactWhile isKeen).reacting tire] },
          { name := "Escape"
            position := some .anytime
            steps := [((StepSpec.on "Slip away" slipType).reactWhile isKeen).reacting
              (.continueAt "Rest")] }] }] }

/-- The application. -/
def application : Application signature where
  model _ := spec.assemble
  hook := Empty.elim
  publisher := Empty.elim
  consumer q := Fin.elim0 q

/-- A pupil came, with some strength. -/
def start (strength : Nat) : World signature where
  state := strength
  runners := #v[{}]
  queues := ⟨#[], Array.size_empty⟩

/-- The world after a pupil came and some calls were made. -/
def after (strength : Nat) (calls : List (Call signature)) : World signature :=
  calls.foldl (fun w c => (call application pupil c w).2) (start strength)

end UseCaseEngine.School
