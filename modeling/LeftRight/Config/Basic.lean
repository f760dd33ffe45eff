import LeftRight.Duration

/-!
# Configuration

The settings with which a set is built: how many slots its readers are spread over, and how
its writers wait. A configuration is usable if its number of slots is neither zero nor too
large for a word.
-/

namespace LeftRight

/-- A number of threads that can run at once, which is never zero. -/
abbrev Parallelism := { n : UInt64 // n ≠ 0 }

namespace Parallelism

/-- What is assumed of a platform that does not tell its parallelism. -/
def fallback : Parallelism := ⟨32, by decide⟩

/-- The parallelism of so many threads, unless there are none. -/
def ofWord? (n : UInt64) : Option Parallelism := if h : n ≠ 0 then some ⟨n, h⟩ else none

end Parallelism

/-- The settings of a set. -/
structure Config where
  /-- The parallelism to plan for; without it the platform is asked. -/
  parallelism : Option Parallelism := none
  /-- Slots for readers per unit of parallelism. -/
  slotsPerCore : UInt64 := 1
  /-- How long a writer sleeps between two polls when it is done spinning and yielding. -/
  drainSleep : Option Duration := none
  /-- The drain time beyond which a drain is logged; without it none is. -/
  slowDrain : Option Duration := some ⟨1000000, by decide⟩
  deriving DecidableEq, Repr

/-- The reasons for which a configuration cannot be used. -/
inductive ConfigError where
  /-- No slots per unit of parallelism. -/
  | noSlots
  /-- The number of slots does not fit into a word. -/
  | tooManySlots (parallelism slotsPerCore : UInt64)
  deriving DecidableEq, Repr

namespace ConfigError

/-- The message of the error. -/
def message : ConfigError → String
  | noSlots => "slots_per_core must be at least 1"
  | tooManySlots parallelism slotsPerCore =>
    s!"{parallelism} x {slotsPerCore} read-indicator slots overflows usize"

/-- The name of the error. -/
def name : ConfigError → String
  | noSlots => "NoSlots"
  | tooManySlots .. => "TooManySlots"

instance : Inspectable ConfigError where
  inspect
    | noSlots => .atom "NoSlots"
    | tooManySlots parallelism slotsPerCore =>
      .record "TooManySlots" [("parallelism", inspect parallelism.toNat),
        ("slots_per_core", inspect slotsPerCore.toNat)]

end ConfigError

namespace Config

/-- The parallelism that a configuration comes to, where the platform reports `detected`. -/
def resolve (detected : Option Parallelism) (c : Config) : Parallelism :=
  c.parallelism.getD (detected.getD .fallback)

/-- The number of slots per version: parallelism times slots per unit of it. -/
def slotCount (detected : Option Parallelism) (c : Config) : Except ConfigError Nat :=
  let parallelism := (c.resolve detected).val
  let slots := parallelism.toNat * c.slotsPerCore.toNat
  if c.slotsPerCore = 0 then .error .noSlots
  else if slots < UInt64.size then .ok slots
  else .error (.tooManySlots parallelism c.slotsPerCore)

/-- Check a configuration without building anything from it. -/
def validate (detected : Option Parallelism) (c : Config) : Except ConfigError Unit :=
  (c.slotCount detected).map fun _ => ()

instance : Inspectable Config where
  inspect c := .record "Config" [
    ("parallelism", inspect (c.parallelism.map fun p => p.val.toNat)),
    ("slots_per_core", inspect c.slotsPerCore.toNat),
    ("drain_sleep", inspect c.drainSleep),
    ("slow_drain", inspect c.slowDrain)]

/-- A hint decides, whatever the platform reports. -/
@[simp] theorem resolve_of_hint {detected : Option Parallelism} {c : Config} {p : Parallelism}
    (h : c.parallelism = some p) : c.resolve detected = p := by
  simp [resolve, h]

end Config

end LeftRight
