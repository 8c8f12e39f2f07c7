import UseCaseEngine.Error
import UseCaseEngine.Json.Reader
import UseCaseEngine.Json.Writer
import UseCaseEngine.Text.Blank

/-!
# Settings

What a runner and the monitoring of it can be told, with the three ways to say it: in code, as a
JSON text, and by the values of variables. A variable that cannot be read leaves the default.

* **Runners** (`RunnerSettings`): how many system steps may follow a step, and whether a run records
  from its start. `check` is `validate`, `ofVariables` is `from_env` with the values of its two
  variables, `ofText?` and `toText` are the JSON form.
* **Monitoring** (`MonitoringSettings`): the service's name, the filter for what is logged, and the
  form that it is logged in, with the same ways to say it.
* **Reading** (`readFlag?`, `readWord?`, `fields?`): a flag with blanks around it, a number of 64
  bits, and the fields of a JSON object or array, of which unknown ones are ignored and known ones
  may not occur twice.

Out of scope: the environment that the variables are in, and why a JSON text was refused.

* `RunnerSettings.check_eq_ok_iff`: settings are refused exactly when they allow no continuation.
-/

namespace UseCaseEngine

/-- A flag: `1`, `true`, `yes` or `on`, or their opposites, in any case and between blanks. -/
def readFlag? (s : String) : Option Bool :=
  match String.ofList ((Text.trimChars s.toList).map Char.toLower) with
  | "1" | "true" | "yes" | "on" => some true
  | "0" | "false" | "no" | "off" => some false
  | _ => none

/-- An unsigned 64-bit word: decimal digits, with a plus sign before them at most. -/
def readWord? (s : String) : Option UInt64 :=
  let digits := match s.toList with
    | '+' :: rest => rest
    | cs => cs
  if !digits.isEmpty && digits.all Char.isDigit then
    let n := Json.digitsValue digits
    if n < UInt64.size then some n.toUInt64 else none
  else none

namespace Json.Value

/-- The value given under a key, if any; `none` when the key occurs twice. -/
def member? (key : String) (members : List (Option String × Value)) : Option (Option Value) :=
  match members.filter (·.1 == some key) with
  | [] => some none
  | [m] => some (some m.2)
  | _ => none

/-- The values given for a list of keys: by an object, whose other members do not count, or by
an array that gives them in this order and may end early. -/
def fields? (keys : List String) : Value → Option (List (Option Value))
  | .object members =>
    if members.all (·.1.isSome) then keys.mapM (member? · members) else none
  | .array items =>
    if items.length ≤ keys.length then
      some (items.map some ++ List.replicate (keys.length - items.length) none)
    else none
  | _ => none

end Json.Value

/-- The value that is given, or the default where none is. -/
def readOr {α : Type} (read : Json.Value → Option α) (default : α) : Option Json.Value → Option α
  | none => some default
  | some v => read v

/-- What a runner can be told. -/
structure RunnerSettings where
  /-- How many system steps may follow one another without a message from outside. -/
  maxContinuations : UInt64 := 100
  /-- Recording starts whenever a model is run. -/
  recordFromStart : Bool := false
  deriving DecidableEq, Repr

namespace RunnerSettings

/-- Refuses settings that allow no continuation. -/
def check (s : RunnerSettings) : Except SettingsError Unit :=
  if s.maxContinuations = 0 then
    .error (.invalidValue "max_auto_continuations" (toString s.maxContinuations.toNat))
  else .ok ()

theorem check_eq_ok_iff (s : RunnerSettings) : s.check = .ok () ↔ s.maxContinuations ≠ 0 := by
  unfold check
  split <;> simp_all

/-- Settings from the values of two variables. -/
def ofVariables (max record : Option String) : Except SettingsError RunnerSettings :=
  let s : RunnerSettings := {
    maxContinuations := (max.bind readWord?).getD 100
    recordFromStart := (record.bind readFlag?).getD false }
  match s.check with
  | .ok _ => .ok s
  | .error e => .error e

/-- Settings from a JSON value. -/
def ofJson? (v : Json.Value) : Option RunnerSettings := do
  match ← v.fields? ["max_auto_continuations", "record_from_start"] with
  | [max, record] =>
    let max ← readOr Json.Value.word? 100 max
    let record ← readOr Json.Value.bool? false record
    return ⟨max, record⟩
  | _ => none

/-- Settings from a JSON text. -/
def ofText? (s : String) : Option RunnerSettings := (Json.read? s).bind ofJson?

/-- The settings as a JSON text. -/
def toText (s : RunnerSettings) : String :=
  Json.objectLiteral
    [("max_auto_continuations", toString s.maxContinuations.toNat),
     ("record_from_start", Json.boolLiteral s.recordFromStart)]

/-- The text that shows the structure of the settings. -/
def structureText (s : RunnerSettings) : String :=
  "RunnerConfig \x7b max_auto_continuations: " ++ toString s.maxContinuations.toNat
    ++ ", record_from_start: " ++ toString s.recordFromStart ++ " \x7d"

end RunnerSettings

/-- What the monitoring of runners can be told. -/
structure MonitoringSettings where
  serviceName : String := "casemodel"
  logFilter : String := "info"
  /-- Log lines are JSON objects. -/
  json : Bool := false
  deriving DecidableEq, Repr

namespace MonitoringSettings

/-- Settings from the values of two variables. -/
def ofVariables (filter json : Option String) : MonitoringSettings :=
  { logFilter := filter.getD "info"
    json := (json.bind readFlag?).getD false }

/-- Settings from a JSON value. -/
def ofJson? (v : Json.Value) : Option MonitoringSettings := do
  match ← v.fields? ["service_name", "log_filter", "json"] with
  | [name, filter, json] =>
    let name ← readOr Json.Value.text? "casemodel" name
    let filter ← readOr Json.Value.text? "info" filter
    let json ← readOr Json.Value.bool? false json
    return ⟨name, filter, json⟩
  | _ => none

/-- Settings from a JSON text. -/
def ofText? (s : String) : Option MonitoringSettings := (Json.read? s).bind ofJson?

/-- The settings as a JSON text. -/
def toText (s : MonitoringSettings) : String :=
  Json.objectLiteral
    [("service_name", Json.textLiteral s.serviceName),
     ("log_filter", Json.textLiteral s.logFilter),
     ("json", Json.boolLiteral s.json)]

end MonitoringSettings

end UseCaseEngine
