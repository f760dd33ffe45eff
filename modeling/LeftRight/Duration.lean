import LeftRight.Text.Inspection

/-!
# Durations

A duration is a whole number of nanoseconds whose seconds fit into a word of 64 bits.
-/

namespace LeftRight

/-- A span of time. -/
structure Duration where
  /-- Its length in nanoseconds. -/
  nanos : Nat
  /-- Its whole seconds fit into 64 bits. -/
  nanos_lt : nanos < UInt64.size * 1000000000
  deriving DecidableEq, Repr

namespace Duration

/-- The nanoseconds of a second. -/
abbrev perSecond : Nat := 1000000000

/-- The whole seconds of a duration. -/
def seconds (d : Duration) : Nat := d.nanos / perSecond

/-- The nanoseconds of a duration beyond its whole seconds. -/
def subsecond (d : Duration) : Nat := d.nanos % perSecond

/-- The duration of so many nanoseconds, unless that is too long. -/
def ofNanos? (n : Nat) : Option Duration :=
  if h : n < UInt64.size * perSecond then some ⟨n, h⟩ else none

/-- Seconds and nanoseconds together; nanoseconds beyond a second are carried. -/
def ofParts? (seconds nanos : Nat) : Option Duration := ofNanos? (seconds * perSecond + nanos)

theorem seconds_lt (d : Duration) : d.seconds < UInt64.size :=
  Nat.div_lt_of_lt_mul (by have := d.nanos_lt; omega)

theorem subsecond_lt (d : Duration) : d.subsecond < perSecond := Nat.mod_lt _ (by decide)

/-- Parts are refused exactly if the carry takes the seconds past 64 bits. -/
theorem ofParts?_eq_none_iff {seconds nanos : Nat} :
    ofParts? seconds nanos = none ↔ UInt64.size ≤ seconds + nanos / perSecond := by
  simp only [ofParts?, ofNanos?, dite_eq_right_iff, reduceCtorEq, imp_false, Nat.not_lt,
    perSecond, UInt64.size]
  omega

/-- A duration is put together again from its own parts. -/
theorem ofParts?_parts (d : Duration) : ofParts? d.seconds d.subsecond = some d := by
  have h : d.seconds * perSecond + d.subsecond = d.nanos := Nat.div_add_mod' _ _
  simp only [ofParts?, ofNanos?, h, d.nanos_lt, dite_true]

/-- The digits after the point of a number of `width` decimals, without closing zeros. -/
def decimals (width n : Nat) : List Char :=
  let digits := Nat.toDigits 10 n
  ((List.replicate (width - digits.length) '0' ++ digits).reverse.dropWhile (· == '0')).reverse

/-- A number of nanoseconds in a unit with so many decimals, with all its decimals. -/
def inUnit (width : Nat) (unit : String) (n : Nat) : String :=
  let unitNanos := Nat.pow 10 width
  let fraction := decimals width (n % unitNanos)
  toString (n / unitNanos) ++
    (if fraction.isEmpty then "" else "." ++ String.ofList fraction) ++ unit

/-- The inspection text of a duration, in the largest unit of which it holds a whole one. -/
def text (d : Duration) : String :=
  if 1000000000 ≤ d.nanos then inUnit 9 "s" d.nanos
  else if 1000000 ≤ d.nanos then inUnit 6 "ms" d.nanos
  else if 1000 ≤ d.nanos then inUnit 3 "µs" d.nanos
  else inUnit 0 "ns" d.nanos

end Duration

instance : Inspectable Duration := ⟨fun d => .atom d.text⟩

end LeftRight
