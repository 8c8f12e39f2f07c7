/-!
# Metrics

Samples are kept in the order they were recorded in; totals are sums in this order.

* **The collector** (`Metrics`): `record` is `record_metric`, `samples` all that was recorded, and
  `total` is `counter_total`, a sum over the counters of a name and a label.
* **Bit patterns** (`bitsText`, `ofBitsText?`): the texts that values are read from and shown as.

Out of scope: collectors other than the one in memory, and what floating-point addition comes to;
values are added as they are, in order, and no result is about their sum as a number.

* `samples_record`: a sample is recorded behind all others.
* `total_record`: a counter sample that is asked for adds its value at the end of the sum.
-/

namespace UseCaseEngine

/-- What a sample's value means. -/
inductive SampleType where
  /-- Values accumulate. -/
  | counter
  /-- The value is the current one. -/
  | gauge
  /-- Values make a distribution. -/
  | histogram
  deriving DecidableEq, Repr

/-- One observation. -/
structure Sample where
  name : String
  value : Float
  type : SampleType
  /-- Names and their values, without repeated names. -/
  labels : List (String × String)

/-- The value of a label, if the sample has the label. -/
def Sample.label? (s : Sample) (key : String) : Option String := s.labels.lookup key

/-- A collector of samples. -/
structure Metrics where
  /-- The samples, the latest first. -/
  recorded : List Sample := []

namespace Metrics

/-- Adds a sample. -/
def record (c : Metrics) (s : Sample) : Metrics := ⟨s :: c.recorded⟩

/-- The samples in order. -/
def samples (c : Metrics) : List Sample := c.recorded.reverse

/-- The sample counts towards a total. -/
def counts (name key value : String) (s : Sample) : Bool :=
  s.type == .counter && s.name == name && s.label? key == some value

/-- The sum of the counter samples with a name and a label. -/
def total (c : Metrics) (name key value : String) : Float :=
  (c.samples.filter (counts name key value)).foldl (fun sum s => sum + s.value) 0

theorem samples_record (c : Metrics) (s : Sample) : (c.record s).samples = c.samples ++ [s] := by
  simp [record, samples]

theorem total_record (c : Metrics) (s : Sample) (name key value : String) :
    (c.record s).total name key value =
      if counts name key value s then c.total name key value + s.value
      else c.total name key value := by
  unfold total
  rw [samples_record, List.filter_append, List.foldl_append]
  split <;> simp_all

end Metrics

/-- The bits of a number in sixteen hexadecimal digits. Zero has one form, and what is not a
number has a name. -/
def bitsText (x : Float) : String :=
  if x.isNaN then "nan"
  else
    let digits := Nat.toDigits 16 (if x == 0 then 0 else x.toBits.toNat)
    String.ofList (List.replicate (16 - digits.length) '0' ++ digits)

/-- The number with the given bits, in hexadecimal digits. -/
def ofBitsText? (s : String) : Option Float := do
  let cs := s.toList
  if cs.isEmpty || cs.length > 16 then none
  let n ← cs.foldlM (fun n c => do
    let d ← if c.isDigit then some (c.toNat - '0'.toNat)
      else if 'a' ≤ c && c ≤ 'f' then some (c.toNat - 'a'.toNat + 10)
      else none
    return n * 16 + d) 0
  return Float.ofBits n.toUInt64

end UseCaseEngine
