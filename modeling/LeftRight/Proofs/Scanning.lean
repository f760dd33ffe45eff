import LeftRight.Json.Token

/-!
# Scanning texts

The numeral of a natural number that fits into a word stands for that number, whatever its digits. A
text is scanned token by token, and a numeral is taken as far as it goes.
-/

namespace LeftRight.Json

/-- Digits are read as long as the number they come to fits into a word. -/
theorem accumulate_eq {n : Nat} {cs : List Char} (h : Nat.ofDigitChars 10 cs n < UInt64.size) :
    accumulate n cs = (Nat.ofDigitChars 10 cs n, []) := by
  induction cs generalizing n with
  | nil => rfl
  | cons c cs ih =>
    have hnext : n * 10 + digitValue c = 10 * n + (c.toNat - '0'.toNat) := by
      rw [digitValue, Nat.mul_comm]
    rw [Nat.ofDigitChars_cons, ← hnext] at h ⊢
    -- The digits to come do not make the number smaller.
    have hle : n * 10 + digitValue c ≤ Nat.ofDigitChars 10 cs (n * 10 + digitValue c) := by
      rw [Nat.ofDigitChars_eq_ofDigitChars_zero]
      exact Nat.le_add_right_of_le (Nat.le_mul_of_pos_left _ (Nat.pow_pos (by decide)))
    rw [accumulate, if_pos (Nat.lt_of_le_of_lt hle h)]
    exact ih h

namespace Numeral

/-- The numeral of a number that fits into a word stands for it. -/
theorem magnitude_ofNat {n : Nat} (h : n < UInt64.size) : (ofNat n).magnitude = .unsigned n := by
  have hdigits : accumulate 0 (Nat.toDigits 10 n) = (n, []) := by
    rw [accumulate_eq] <;> rw [Nat.ofDigitChars_ten_toDigits]
    exact h
  simp [magnitude, ofNat, hdigits]

/-- A number other than zero is not written with a zero in front. -/
theorem head?_toDigits_ne {n : Nat} (h : n ≠ 0) : (Nat.toDigits 10 n).head? ≠ some '0' := by
  induction n using Nat.strongRecOn with
  | ind n ih =>
    by_cases hlt : n < 10
    · rw [Nat.toDigits_of_lt_base hlt]
      have hdigit : ∀ m < 10, m ≠ 0 → [m.digitChar].head? ≠ some '0' := by decide
      exact hdigit n hlt h
    · have hrest := ih (n / 10) (by omega) (by omega)
      rw [Nat.toDigits_of_base_le (by decide) (by omega),
        List.head?_append, Option.or_of_isSome (by simp [Nat.toDigits_ne_nil])]
      exact hrest

/-- Whether a numeral does not go on with this text. -/
def Ends (rest : List Char) : Prop :=
  ∀ c ∈ rest.head?, c.isDigit = false ∧ c ≠ '.' ∧ c ≠ 'e' ∧ c ≠ 'E'

/-- Without its letter there is no exponent. -/
theorem scanExponent_of_ends {rest : List Char} (h : Ends rest) :
    scanExponent rest = some (none, rest) := by
  cases rest with
  | nil => rfl
  | cons c rest => rw [scanExponent, if_neg (not_or.mpr (h c rfl).2.2)]

end Numeral

/-- A token that begins with a digit is a number. -/
theorem Token.scan_digit {c : Char} (hc : c.isDigit = true) (rest : List Char) :
    Token.scan (c :: rest) = (Numeral.scan (c :: rest)).map fun n => (.number n.1, n.2) := by
  have hne : ∀ m ∈ ['\x7b', '\x7d', '[', ']', ',', ':', '"', 'n', 't', 'f'], c ≠ m := by
    have hother : ['\x7b', '\x7d', '[', ']', ',', ':', '"', 'n', 't', 'f'].all (!·.isDigit) := by
      decide
    rintro m hm rfl
    have hdigit := List.all_eq_true.mp hother c hm
    rw [hc] at hdigit
    cases hdigit
  simp only [List.forall_mem_cons] at hne
  simp [scan, ofMark?, scanLong, hne]

/-- No token begins with a blank. -/
theorem Token.scan_blank {c : Char} (h : isBlank c = true) (rest : List Char) :
    Token.scan (c :: rest) = none := by
  simp only [isBlank, Bool.or_eq_true, beq_iff_eq] at h
  rcases h with ((rfl | rfl) | rfl) | rfl <;> rfl

/-- A text that begins with a token is read as this token and the tokens of what follows it. -/
theorem tokens_of_scan {cs rest : List Char} {token : Token}
    (h : Token.scan cs = some (token, rest)) : tokens cs = token :: tokens rest := by
  cases cs with
  | nil => cases h
  | cons c cs =>
    have hblank : ¬isBlank c = true := fun hb => by
      rw [Token.scan_blank hb] at h
      cases h
    rw [tokens, if_neg hblank]
    split
    · rename_i hnone
      rw [hnone] at h
      cases h
    · rename_i token' rest' hsome
      rw [hsome] at h
      cases h
      rfl

end LeftRight.Json
