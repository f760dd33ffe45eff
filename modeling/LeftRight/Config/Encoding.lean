import LeftRight.Config.Basic
import LeftRight.Json.Token

/-!
# Encoding configurations

A configuration as a JSON text: an object of its four fields, in the order of their
declaration and without blanks. A duration is an object of its seconds and nanoseconds.
-/

namespace LeftRight.Config

open Json

/-- The fields of a configuration. -/
inductive Field where
  /-- The parallelism to plan for. -/
  | parallelism
  /-- Slots per unit of parallelism. -/
  | slotsPerCore
  /-- The sleep between two polls. -/
  | drainSleep
  /-- The threshold of slow drains. -/
  | slowDrain
  deriving DecidableEq, Repr

/-- The key of a field. -/
def Field.key : Field → String
  | parallelism => "parallelism"
  | slotsPerCore => "slots_per_core"
  | drainSleep => "drain_sleep"
  | slowDrain => "slow_drain"

/-- The parts of a duration. -/
inductive Part where
  /-- Its seconds. -/
  | seconds
  /-- Its nanoseconds. -/
  | nanos
  deriving DecidableEq, Repr

/-- The key of a part. -/
def Part.key : Part → String
  | seconds => "secs"
  | nanos => "nanos"

/-- An object with these members. -/
def objectTokens (members : List (String × List Token)) : List Token :=
  let written := members.map fun member => .ofString member.1 :: .colon :: member.2
  .openBrace :: (written.intersperse [.comma]).flatten ++ [.closeBrace]

/-- A value that may be absent. -/
def optionTokens {α : Type} (tokens : α → List Token) : Option α → List Token
  | none => [.null]
  | some a => tokens a

/-- The tokens of a duration. -/
def durationTokens (d : Duration) : List Token :=
  objectTokens [(Part.seconds.key, [.ofNat d.seconds]), (Part.nanos.key, [.ofNat d.subsecond])]

/-- The tokens of a configuration. -/
def tokens (c : Config) : List Token :=
  objectTokens [
    (Field.parallelism.key, optionTokens (fun p => [.ofNat p.val.toNat]) c.parallelism),
    (Field.slotsPerCore.key, [.ofNat c.slotsPerCore.toNat]),
    (Field.drainSleep.key, optionTokens durationTokens c.drainSleep),
    (Field.slowDrain.key, optionTokens durationTokens c.slowDrain)]

/-- The text of a configuration. -/
def encode (c : Config) : String := String.ofList (render c.tokens)

end LeftRight.Config
