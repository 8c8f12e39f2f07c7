import UseCaseEngine.Script.Vocabulary

/-!
# Scripts

User code as data: conditions for guards, statements for reactions, rules for hooks, and handlers
for inboxes and queues. Scripts act on integer variables and a log, and call the runners and queues
of a session, which they name by number; a `Shape` says how many there are. They are what the
project's programs are tried out with; no result is about scripts.

* `get_set_self`, `cart_setCart_self`: what was written last is read.
-/

namespace UseCaseEngine.Script

/-- How many runners, models and queues a session has. -/
structure Shape where
  runners : Nat
  models : Nat
  queues : Nat
  deriving DecidableEq, Repr

variable (k : Shape)

/-- How two integers compare. -/
inductive Comparison where
  | lt
  | le
  | gt
  | ge
  | eq
  | ne
  deriving DecidableEq, Repr

/-- Whether the comparison holds. -/
def Comparison.holds : Comparison → Int → Int → Bool
  | .lt, a, b => a < b
  | .le, a, b => a ≤ b
  | .gt, a, b => a > b
  | .ge, a, b => a ≥ b
  | .eq, a, b => a = b
  | .ne, a, b => a ≠ b

/-- A condition. Evaluating one may be seen: some log, count, or call a runner. -/
inductive Condition where
  | const (value : Bool)
  | compare (c : Comparison) (var : String) (n : Int)
  | negation (c : Condition)
  /-- All hold; the rest is not asked once one does not. -/
  | all (cs : List Condition)
  /-- One holds; the rest is not asked once one does. -/
  | any (cs : List Condition)
  /-- Logs the outcome. -/
  | trace (label : String) (c : Condition)
  /-- Counts the evaluation in a variable first. -/
  | tick (var : String) (c : Condition)
  /-- The actor acts on the runner. -/
  | acting (r : Fin k.runners) (actor : String)
  /-- The runner reacts to the message without an error. -/
  | react (r : Fin k.runners) (m : Message)

/-- What a hook's rule does with a step. -/
inductive Treatment where
  | trigger
  /-- The step does not react, and this stands in for its output. -/
  | suppress (output : Output)
  /-- The step reacts, and this stands in for its output. -/
  | replace (output : Output)
  /-- The step reacts, and this stands in for a failure. -/
  | recover (m : Message)

/-- A rule of a hook: what it asks of a step and its message, and what it does then. -/
structure Rule where
  step : Option String := none
  handlesFailure : Option Bool := none
  type : Option String := none
  condition : Option (Condition k) := none
  treatment : Treatment

/-- A hook. -/
inductive HookSpec where
  | callThrough
  | traced (service : String) (sampling : Bool)
  /-- The first rule that applies; without one the step reacts. -/
  | rules (rules : List (Rule k)) (log : Bool)

/-- A statement. -/
inductive Statement where
  | set (var : String) (n : Int)
  | add (var : String) (n : Int)
  | log (text : String)
  /-- Logs the message received. -/
  | logMessage
  /-- Publishes a message; the last one counts. -/
  | publish (m : Message)
  /-- Publishes the payload received under a tag. -/
  | echo (t : Tag)
  /-- Ends with a failure. -/
  | fail (m : Message)
  /-- Ends with a failure that has the payload received. -/
  | failEcho (t : Tag)
  /-- Ends with a failure that has the type and the payload received, as free text. -/
  | failAgain
  | branch (c : Condition k) (yes no : List Statement)
  | react (r : Fin k.runners) (m : Message)
  | run (r : Fin k.runners) (model : Fin k.models)
  | stop (r : Fin k.runners)
  | actAs (r : Fin k.runners) (actor : String)
  | startRecording (r : Fin k.runners)
  | stopRecording (r : Fin k.runners)
  | logLatest (r : Fin k.runners)
  | logRecorded (r : Fin k.runners)
  /-- Logs which steps could react. -/
  | logSteps (r : Fin k.runners) (type : MessageType)
  | setHook (r : Fin k.runners) (hook : HookSpec k)
  | setPublisher (r : Fin k.runners) (publisher : List Statement)
  | put (q : Fin k.queues) (m : Message)
  | stopQueue (q : Fin k.queues)

/-- What an inbox or a queue does with a message, in this order. -/
structure Handler where
  /-- It logs the message. -/
  log : Bool := true
  /-- It does not survive messages of this type. -/
  panicsOn : Option String := none
  /-- It refuses messages of this type. -/
  failsOn : Option String := none
  error : Option RunnerError := none
  reply : Option Message := none
  runner : Option (Fin k.runners) := none
  queue : Option (Fin k.queues) := none
  statements : List (Statement k) := []

/-- What scripts act on. -/
structure State where
  /-- The variables that were set, the latest first. -/
  vars : List (String × Int) := []
  /-- The lines logged, the latest first. -/
  lines : List String := []
  /-- The carts that were touched, by the number of their model, the latest first. -/
  carts : List (Nat × Cart) := []
  deriving DecidableEq, Repr

namespace State

/-- The value of a variable; zero unless it was set. -/
def get (s : State) (var : String) : Int := (s.vars.lookup var).getD 0

/-- Sets a variable. -/
def set (s : State) (var : String) (n : Int) : State :=
  { s with vars := (var, n) :: s.vars.filter (·.1 != var) }

/-- Adds a line to the log. -/
def log (s : State) (line : String) : State := { s with lines := line :: s.lines }

/-- The cart of the model with a number; empty unless it was touched. -/
def cart (s : State) (model : Nat) : Cart := (s.carts.lookup model).getD {}

/-- Replaces the cart of the model with a number. -/
def setCart (s : State) (model : Nat) (c : Cart) : State :=
  { s with carts := (model, c) :: s.carts.filter (·.1 != model) }

theorem get_set_self (s : State) (var : String) (n : Int) : (s.set var n).get var = n := by
  simp [get, set]

theorem cart_setCart_self (s : State) (model : Nat) (c : Cart) :
    (s.setCart model c).cart model = c := by
  simp [cart, setCart]

/-- Where the cart of a model is kept: every model has its own. -/
def cartSlot (model : Nat) : Slot State Cart where
  get s := s.cart model
  put c s := s.setCart model c
  get_put c s := s.cart_setCart_self model c

end State

/-- The signature of a session of scripts: hooks and publishers are their own names. -/
def Shape.signature : Signature where
  State := State
  ModelName := Fin k.models
  HookName := HookSpec k
  PublisherName := List (Statement k)
  runners := k.runners
  queues := k.queues

end UseCaseEngine.Script
