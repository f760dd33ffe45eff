import LeftRight.Config.Encoding
import LeftRight.Json.Skip

/-!
# Decoding configurations

A configuration is read from an object of its fields in any order, or from an array of them
in the order of their declaration. Fields that are missing have their default values, and
unknown fields of an object are skipped. The first mistake in the order of the text counts.
-/

namespace LeftRight

open Json

/-- The reasons for which a text is no configuration. -/
inductive DecodeError where
  /-- The text is not one value, as far as it was read. -/
  | malformed
  /-- A value is of another type than it should be. -/
  | invalidType
  /-- A number is out of its range. -/
  | invalidValue
  /-- An array has so few elements. -/
  | invalidLength (length : Nat)
  /-- A field occurs twice. -/
  | duplicateField (key : String)
  /-- A field is missing. -/
  | missingField (key : String)
  /-- A field is not known where every field has to be. -/
  | unknownField (key : String)
  /-- The seconds of a duration do not fit into a word. -/
  | overflow
  deriving DecidableEq, Repr

namespace DecodeError

/-- What is wrong, with what was expected instead where a key is not known. -/
def message : DecodeError → String
  | malformed => "syntax"
  | invalidType => "invalid type"
  | invalidValue => "invalid value"
  | invalidLength length => s!"invalid length {length}"
  | duplicateField key => "duplicate field `" ++ key ++ "`"
  | missingField key => "missing field `" ++ key ++ "`"
  | unknownField key => "unknown field `" ++ key ++ "`, expected `secs` or `nanos`"
  | overflow => "overflow deserializing Duration"

/-- The beginning of a text, up to the first of some marks. -/
def cutAt (marks : List (List Char)) : List Char → List Char
  | [] => []
  | c :: rest =>
    if marks.any (·.isPrefixOf (c :: rest)) then [] else c :: cutAt marks rest

/-- The message up to the first place that looks as if details began there. -/
def headline (e : DecodeError) : String :=
  String.ofList (cutAt [": ".toList, ", ".toList, " at line".toList] e.message.toList)

end DecodeError

namespace Config

/-- A reader takes a value from the tokens, and returns it with the tokens that follow. -/
abbrev Reader (α : Type) := List Token → Except DecodeError (α × List Token)

/-- What is wrong with a value that is not of the type asked for: it may not even be one. -/
def mismatch : List Token → DecodeError
  | .null :: _ | .bool _ :: _ | .openBracket :: _ | .openBrace :: _ => .invalidType
  | .string pieces :: _ => if (joinPieces pieces).isSome then .invalidType else .malformed
  | .number n :: _ => if n.magnitude = .excessive then .malformed else .invalidType
  | _ => .malformed

/-- Read a natural number of at most so much. -/
def readNat (most : Nat) : Reader Nat
  | .number n :: rest =>
    match n.magnitude with
    | .unsigned value => if value ≤ most then .ok (value, rest) else .error .invalidValue
    | .negative => .error .invalidValue
    | .real => .error .invalidType
    | .excessive => .error .malformed
  | tokens => .error (mismatch tokens)

/-- Read a value that may be absent. -/
def readOption {α : Type} (read : Reader α) : Reader (Option α)
  | .null :: rest => .ok (none, rest)
  | tokens => (read tokens).map fun (a, rest) => (some a, rest)

/-- Read a word. -/
def readWord : Reader UInt64 := fun tokens =>
  (readNat (UInt64.size - 1) tokens).map fun (n, rest) => (n.toUInt64, rest)

/-- Read a parallelism, which is a word other than zero. -/
def readParallelism : Reader Parallelism := fun tokens => do
  let (n, rest) ← readWord tokens
  match Parallelism.ofWord? n with
  | some p => return (p, rest)
  | none => throw .invalidValue

/-- Take a token that has to come next. -/
def expect (token : Token) : List Token → Except DecodeError (List Token)
  | t :: rest => if t = token then .ok rest else .error .malformed
  | [] => .error .malformed

/-- Read the next element of an array, unless the array ends. -/
def readElement {α : Type} (first : Bool) (read : Reader α) : Reader (Option α)
  | .closeBracket :: rest => .ok (none, .closeBracket :: rest)
  | tokens => do
    let tokens ← if first then pure tokens else expect .comma tokens
    let (a, rest) ← read tokens
    return (some a, rest)

/-- Read the members of an object, after its opening brace. Each member is read by its key
into a draft. -/
def readMembers {σ : Type} (member : String → σ → Reader σ) (first : Bool) (draft : σ)
    (tokens : List Token) : Except DecodeError (σ × List Token) :=
  match tokens with
  | .closeBrace :: rest => .ok (draft, rest)
  | tokens => do
    let afterComma ← if first then pure tokens else expect .comma tokens
    match afterComma with
    | .string pieces :: afterKey =>
      match joinPieces pieces with
      | none => .error .malformed
      | some key =>
        let (draft, rest) ← member (String.ofList key) draft afterKey
        if _h : rest.length < tokens.length then readMembers member false draft rest
        else .error .malformed
    | _ => .error .malformed
  termination_by tokens.length
  decreasing_by exact _h

/-- Read the value of a member, after its key, into a place that is still empty. -/
def readInto {α : Type} (key : String) (place : Option α) (read : Reader α) : Reader α :=
  fun tokens => do
    if place.isSome then throw (.duplicateField key)
    read (← expect .colon tokens)

/-- The parts of a duration as far as they have been read. -/
structure DurationDraft where
  /-- The seconds. -/
  seconds : Option Nat := none
  /-- The nanoseconds, which may be more than a second. -/
  nanos : Option Nat := none
  deriving DecidableEq, Repr

/-- Read the seconds of a duration. -/
def readSeconds : Reader Nat := readNat (UInt64.size - 1)

/-- Read the nanoseconds of a duration. -/
def readNanos : Reader Nat := readNat (UInt32.size - 1)

/-- Read a member of a duration. -/
def readDurationMember (key : String) (draft : DurationDraft) : Reader DurationDraft :=
  fun tokens =>
    if key = Part.seconds.key then
      (readInto key draft.seconds readSeconds tokens).map fun (seconds, rest) =>
        ({ draft with seconds := some seconds }, rest)
    else if key = Part.nanos.key then
      (readInto key draft.nanos readNanos tokens).map fun (nanos, rest) =>
        ({ draft with nanos := some nanos }, rest)
    else .error (.unknownField key)

/-- The duration of these parts, if it is not too long. -/
def durationOf (seconds nanos : Nat) : Except DecodeError Duration :=
  (Duration.ofParts? seconds nanos).elim (.error .overflow) .ok

/-- The duration that a draft comes to. -/
def DurationDraft.finish (draft : DurationDraft) : Except DecodeError Duration :=
  match draft.seconds, draft.nanos with
  | some seconds, some nanos => durationOf seconds nanos
  | none, _ => .error (.missingField Part.seconds.key)
  | some _, none => .error (.missingField Part.nanos.key)

/-- Read a duration: an object of both parts, or an array of the seconds and nanoseconds. -/
def readDuration : Reader Duration
  | .openBrace :: rest => do
    let (draft, rest) ← readMembers readDurationMember true {} rest
    return (← draft.finish, rest)
  | .openBracket :: rest => do
    let (seconds, rest) ← readElement true readSeconds rest
    let some seconds := seconds | throw (.invalidLength 0)
    let (nanos, rest) ← readElement false readNanos rest
    let some nanos := nanos | throw (.invalidLength 1)
    let d ← durationOf seconds nanos
    return (d, ← expect .closeBracket rest)
  | tokens => .error (mismatch tokens)

/-- The fields of a configuration as far as they have been read. -/
structure Draft where
  /-- The parallelism, which may have been read as absent. -/
  parallelism : Option (Option Parallelism) := none
  /-- The slots per unit of parallelism. -/
  slotsPerCore : Option UInt64 := none
  /-- The sleep, which may have been read as absent. -/
  drainSleep : Option (Option Duration) := none
  /-- The threshold, which may have been read as absent. -/
  slowDrain : Option (Option Duration) := none
  deriving DecidableEq, Repr

/-- The configuration that a draft comes to: what was not read has its default value. -/
def Draft.finish (draft : Draft) : Config where
  parallelism := draft.parallelism.getD ({} : Config).parallelism
  slotsPerCore := draft.slotsPerCore.getD ({} : Config).slotsPerCore
  drainSleep := draft.drainSleep.getD ({} : Config).drainSleep
  slowDrain := draft.slowDrain.getD ({} : Config).slowDrain

/-- Read a member of a configuration; one that is not known is skipped. -/
def readMember (key : String) (draft : Draft) : Reader Draft := fun tokens =>
  if key = Field.parallelism.key then
    (readInto key draft.parallelism (readOption readParallelism) tokens).map
      fun (value, rest) => ({ draft with parallelism := some value }, rest)
  else if key = Field.slotsPerCore.key then
    (readInto key draft.slotsPerCore readWord tokens).map
      fun (value, rest) => ({ draft with slotsPerCore := some value }, rest)
  else if key = Field.drainSleep.key then
    (readInto key draft.drainSleep (readOption readDuration) tokens).map
      fun (value, rest) => ({ draft with drainSleep := some value }, rest)
  else if key = Field.slowDrain.key then
    (readInto key draft.slowDrain (readOption readDuration) tokens).map
      fun (value, rest) => ({ draft with slowDrain := some value }, rest)
  else do
    match skipValue (← expect .colon tokens) with
    | some rest => return (draft, rest)
    | none => throw .malformed

/-- Read a configuration: an object or an array of its fields. -/
def read : Reader Config
  | .openBrace :: rest => do
    let (draft, rest) ← readMembers readMember true {} rest
    return (draft.finish, rest)
  | .openBracket :: rest => do
    let (parallelism, rest) ← readElement true (readOption readParallelism) rest
    let (slotsPerCore, rest) ← readElement false readWord rest
    let (drainSleep, rest) ← readElement false (readOption readDuration) rest
    let (slowDrain, rest) ← readElement false (readOption readDuration) rest
    let draft : Draft := { parallelism, slotsPerCore, drainSleep, slowDrain }
    return (draft.finish, ← expect .closeBracket rest)
  | tokens => .error (mismatch tokens)

/-- Read a configuration from tokens that hold nothing else. -/
def ofTokens (tokens : List Token) : Except DecodeError Config := do
  let (config, rest) ← read tokens
  if rest.isEmpty then return config else throw .malformed

/-- Read a configuration from a text that holds nothing else. -/
def decode (text : String) : Except DecodeError Config := ofTokens (Json.tokens text.toList)

end Config

end LeftRight
