/-!
# Numerals

A numeral is a number as it is written: digits, perhaps a fraction and an exponent. Whole
numbers of up to 64 bits are exact. All others count as real, unless they are too large for a
binary number of double precision.
-/

namespace LeftRight.Json

/-- A number as it is written. -/
structure Numeral where
  /-- Whether a minus comes first. -/
  negative : Bool := false
  /-- The digits before the point. -/
  whole : List Char
  /-- The digits after the point, if there is one. -/
  fraction : Option (List Char) := none
  /-- Whether the exponent is negative, and its digits, if there is one. -/
  exponent : Option (Bool × List Char) := none
  deriving DecidableEq, Repr

/-- What a numeral stands for, as far as a reader of whole numbers can tell. -/
inductive Magnitude where
  /-- A whole number that fits into an unsigned word. -/
  | unsigned (value : Nat)
  /-- A negative whole number that fits into a signed word. -/
  | negative
  /-- Any other number. -/
  | real
  /-- A number beyond those of double precision. -/
  | excessive
  deriving DecidableEq, Repr

/-- The value of a decimal digit. -/
def digitValue (c : Char) : Nat := c.toNat - '0'.toNat

/-- Read digits into a number as long as it fits into a word, and return the digits beyond. -/
def accumulate (n : Nat) : List Char → Nat × List Char
  | [] => (n, [])
  | c :: cs =>
    let next := n * 10 + digitValue c
    if next < UInt64.size then accumulate next cs else (n, c :: cs)

/-- The nearest multiple of a power of two that has 53 significant bits; of two that are
equally near, the even one. -/
def roundDouble (n : Nat) : Nat :=
  let excess := n.log2 + 1 - 53
  let kept := n >>> excess
  let unit := 1 <<< excess
  let lost := n % unit
  if unit < 2 * lost ∨ (unit = 2 * lost ∧ kept % 2 = 1) then (kept + 1) <<< excess
  else kept <<< excess

/-- The least number that is rounded to one beyond those of double precision. -/
def doubleLimit : Nat := 0x3FFFFFFFFFFFFF <<< 970

/-- Whether `n * 10 ^ exponent`, with both factors and the product rounded to double
precision, is a number of double precision. -/
def isFinite (n : Nat) (exponent : Int) : Bool :=
  if exponent < 0 then true
  else if 308 < exponent then n == 0
  else roundDouble n * roundDouble (Nat.pow 10 exponent.toNat) < doubleLimit

namespace Numeral

/-- The numeral of a natural number. -/
def ofNat (n : Nat) : Numeral := { whole := Nat.toDigits 10 n }

/-- The number that an exponent part stands for. -/
def exponentValue (n : Numeral) : Int :=
  match n.exponent with
  | none => 0
  | some (negative, digits) =>
    let value := digits.foldl (fun n c => n * 10 + digitValue c) 0
    if negative then -value else value

/-- What the numeral stands for. Digits that no longer fit into a word only count as places:
before the point they raise the exponent, after it they are dropped. -/
def magnitude (n : Numeral) : Magnitude :=
  let (value, beyond) := accumulate 0 n.whole
  if n.fraction.isNone && n.exponent.isNone && beyond.isEmpty then
    if !n.negative then .unsigned value
    else if 0 < value ∧ 2 * value ≤ UInt64.size then .negative
    else .real
  else
    let fraction := n.fraction.getD []
    let (value, dropped) := accumulate value fraction
    let places : Int := beyond.length - (fraction.length - dropped.length : Nat)
    if isFinite value (places + n.exponentValue) then .real else .excessive

/-- The characters of a numeral. -/
def render (n : Numeral) : List Char :=
  (if n.negative then ['-'] else []) ++ n.whole ++
    (match n.fraction with
      | none => []
      | some digits => '.' :: digits) ++
    (match n.exponent with
      | none => []
      | some (negative, digits) => 'e' :: (if negative then ['-'] else []) ++ digits)

/-- The digits at the beginning of a text, unless there are none, and what follows them. -/
def scanDigits (cs : List Char) : Option (List Char × List Char) :=
  let digits := cs.takeWhile Char.isDigit
  if digits.isEmpty then none else some (digits, cs.dropWhile Char.isDigit)

/-- The minus at the beginning of a text, if there is one, and what follows it. -/
def scanMinus : List Char → Bool × List Char
  | '-' :: rest => (true, rest)
  | rest => (false, rest)

/-- The digits before the point. A zero comes first only if it comes alone. -/
def scanWhole (cs : List Char) : Option (List Char × List Char) := do
  let (digits, rest) ← scanDigits cs
  if digits.head? = some '0' ∧ digits.length ≠ 1 then none else some (digits, rest)

/-- The fraction, if a point comes first. -/
def scanFraction : List Char → Option (Option (List Char) × List Char)
  | '.' :: rest => (scanDigits rest).map fun (digits, rest) => (some digits, rest)
  | rest => some (none, rest)

/-- The sign of an exponent: a minus, a plus or nothing. -/
def scanSign : List Char → Bool × List Char
  | '-' :: rest => (true, rest)
  | '+' :: rest => (false, rest)
  | rest => (false, rest)

/-- The exponent, if its letter comes first. -/
def scanExponent : List Char → Option (Option (Bool × List Char) × List Char)
  | c :: rest =>
    if c = 'e' ∨ c = 'E' then
      let sign := scanSign rest
      (scanDigits sign.2).map fun (digits, rest) => (some (sign.1, digits), rest)
    else some (none, c :: rest)
  | [] => some (none, [])

/-- The numeral at the beginning of a text, and what follows it. -/
def scan (cs : List Char) : Option (Numeral × List Char) := do
  let sign := scanMinus cs
  let (whole, rest) ← scanWhole sign.2
  let (fraction, rest) ← scanFraction rest
  let (exponent, rest) ← scanExponent rest
  return ({ negative := sign.1, whole, fraction, exponent }, rest)

theorem length_scanDigits {cs digits rest : List Char}
    (h : scanDigits cs = some (digits, rest)) : rest.length < cs.length := by
  simp only [scanDigits] at h
  split at h
  · simp at h
  · rename_i hd
    obtain ⟨rfl, rfl⟩ := Prod.mk.inj (Option.some.inj h)
    have := congrArg List.length (List.takeWhile_append_dropWhile (p := Char.isDigit) (l := cs))
    rw [List.length_append] at this
    have := List.length_pos_iff.mpr (fun he => hd (List.isEmpty_iff.mpr he))
    omega

theorem length_scanMinus (cs : List Char) : (scanMinus cs).2.length ≤ cs.length := by
  unfold scanMinus
  split <;> simp

theorem length_scanSign (cs : List Char) : (scanSign cs).2.length ≤ cs.length := by
  unfold scanSign
  split <;> simp

theorem length_scanWhole {cs digits rest : List Char}
    (h : scanWhole cs = some (digits, rest)) : rest.length < cs.length := by
  simp only [scanWhole, Option.bind_eq_bind, Option.bind_eq_some_iff] at h
  obtain ⟨⟨ds, r⟩, hs, h⟩ := h
  split at h
  · simp at h
  · obtain ⟨rfl, rfl⟩ := Prod.mk.inj (Option.some.inj h)
    exact length_scanDigits hs

theorem length_scanFraction {cs rest : List Char} {fraction : Option (List Char)}
    (h : scanFraction cs = some (fraction, rest)) : rest.length ≤ cs.length := by
  unfold scanFraction at h
  split at h
  · obtain ⟨⟨ds, r⟩, hs, h⟩ := Option.map_eq_some_iff.mp h
    obtain ⟨-, rfl⟩ := Prod.mk.inj h
    have := length_scanDigits hs
    simp only [List.length_cons]
    omega
  · obtain ⟨-, rfl⟩ := Prod.mk.inj (Option.some.inj h)
    exact Nat.le_refl _

theorem length_scanExponent {cs rest : List Char} {exponent : Option (Bool × List Char)}
    (h : scanExponent cs = some (exponent, rest)) : rest.length ≤ cs.length := by
  unfold scanExponent at h
  split at h
  · rename_i c cs
    split at h
    · obtain ⟨⟨ds, r⟩, hs, h⟩ := Option.map_eq_some_iff.mp h
      obtain ⟨-, rfl⟩ := Prod.mk.inj h
      have := length_scanDigits hs
      have := length_scanSign cs
      simp only [List.length_cons]
      omega
    · obtain ⟨-, rfl⟩ := Prod.mk.inj (Option.some.inj h)
      exact Nat.le_refl _
  · obtain ⟨-, rfl⟩ := Prod.mk.inj (Option.some.inj h)
    exact Nat.le_refl _

/-- A numeral takes at least one character. -/
theorem length_scan {cs rest : List Char} {n : Numeral} (h : scan cs = some (n, rest)) :
    rest.length < cs.length := by
  simp only [scan, Option.bind_eq_bind, Option.bind_eq_some_iff] at h
  obtain ⟨⟨_, r₁⟩, h₁, ⟨_, r₂⟩, h₂, ⟨_, r₃⟩, h₃, h⟩ := h
  obtain ⟨-, rfl⟩ := Prod.mk.inj (Option.some.inj h)
  have := length_scanMinus cs
  have := length_scanWhole h₁
  have := length_scanFraction h₂
  have := length_scanExponent h₃
  dsimp only at *
  omega

end Numeral

end LeftRight.Json
