import LeftRight.Proofs.Scanning
import Mathlib.Data.List.Chain

/-!
# Spellings

A text may be written with blanks wherever a token begins or ends, with characters of strings
escaped in any of the allowed ways, and with signs and letters of exponents as one likes. Whatever
the spelling, the text is read as the tokens that it spells.
-/

namespace LeftRight.Json

/-! ## Strings -/

/-- Whether a character is the hexadecimal digit of a value, in upper or lower case. -/
def IsHexDigit (c : Char) (value : Nat) : Prop :=
  value < 16 ∧ (c = value.digitChar ∨ c = value.digitChar.toUpper)

/-- The letters that may follow a backslash, and what they stand for. -/
def escapes : List (Char × Char) :=
  [('"', '"'), ('\\', '\\'), ('/', '/'), ('b', '\x08'), ('f', '\x0c'), ('n', '\n'), ('r', '\r'),
    ('t', '\t')]

/-- The ways of writing a piece of a string: a character as it is, a character by its letter, or a
unit by its digits. -/
inductive Piece.Spelled : Piece → List Char → Prop where
  /-- Any character but quotes, backslashes and controls is written as it is. -/
  | plain {c : Char} (hquote : c ≠ '"') (hescape : c ≠ '\\') (hcontrol : 0x20 ≤ c.toNat) :
      Spelled (.char c) [c]
  /-- Some characters have a letter. -/
  | escaped {c letter : Char} (h : (letter, c) ∈ escapes) : Spelled (.char c) ['\\', letter]
  /-- Every unit has four digits. -/
  | unit {a b c d : Char} {i j k l : Nat} (ha : IsHexDigit a i) (hb : IsHexDigit b j)
      (hc : IsHexDigit c k) (hd : IsHexDigit d l) :
      Spelled (.unit (((i * 16 + j) * 16 + k) * 16 + l)) ['\\', 'u', a, b, c, d]

/-- The ways of writing the inside of a string. -/
inductive SpellsString : List Piece → List Char → Prop where
  /-- Nothing is written for the empty string. -/
  | nil : SpellsString [] []
  /-- One piece is written after the other. -/
  | cons {piece : Piece} {pieces : List Piece} {word cs : List Char}
      (hpiece : piece.Spelled word) (hrest : SpellsString pieces cs) :
      SpellsString (piece :: pieces) (word ++ cs)

theorem hexValue_of_isHexDigit {c : Char} {value : Nat} (h : IsHexDigit c value) :
    hexValue c = some value := by
  have hall : ∀ v < 16, hexValue v.digitChar = some v ∧ hexValue v.digitChar.toUpper = some v := by
    decide
  obtain ⟨hlt, rfl | rfl⟩ := h
  · exact (hall value hlt).1
  · exact (hall value hlt).2

/-- A string is read piece by piece, up to its closing quote. -/
theorem scanString_of_spells {pieces : List Piece} {cs : List Char} (h : SpellsString pieces cs)
    (rest : List Char) :
    scanString (cs ++ '"' :: rest) = some (pieces, rest) := by
  induction h with
  | nil => rw [List.nil_append, scanString.eq_def]; rfl
  | cons hpiece hrest ih =>
    cases hpiece with
    | plain hquote hescape hcontrol =>
      rw [List.singleton_append, List.cons_append, scanString.eq_def]
      simp [hquote, hescape, Nat.not_lt.mpr hcontrol, ih]
    | escaped hletter =>
      simp only [escapes, List.mem_cons, Prod.mk.injEq, List.not_mem_nil, or_false] at hletter
      rcases hletter with ⟨rfl, rfl⟩ | ⟨rfl, rfl⟩ | ⟨rfl, rfl⟩ | ⟨rfl, rfl⟩ | ⟨rfl, rfl⟩ |
        ⟨rfl, rfl⟩ | ⟨rfl, rfl⟩ | ⟨rfl, rfl⟩ <;> simp [scanString, unescape, ih]
    | unit ha hb hc hd =>
      simp [scanString, unitOf, hexValue_of_isHexDigit ha, hexValue_of_isHexDigit hb,
        hexValue_of_isHexDigit hc, hexValue_of_isHexDigit hd, ih]

/-- The pieces of a string that is made of some characters: a character itself, or the one or two
16-bit units that it is made of. -/
inductive Names : List Piece → List Char → Prop where
  /-- The empty string has no pieces. -/
  | nil : Names [] []
  /-- A character is a piece. -/
  | char {pieces : List Piece} {cs : List Char} (c : Char) (hrest : Names pieces cs) :
      Names (.char c :: pieces) (c :: cs)
  /-- So is its number, if that is a unit. -/
  | unit {pieces : List Piece} {cs : List Char} {c : Char} (hunit : c.toNat < 0x10000)
      (hrest : Names pieces cs) : Names (.unit c.toNat :: pieces) (c :: cs)
  /-- All others are made of a first and a second half. -/
  | pair {pieces : List Piece} {cs : List Char} {c : Char} (hpair : 0x10000 ≤ c.toNat)
      (hrest : Names pieces cs) :
      Names (.unit (0xD800 + (c.toNat - 0x10000) / 0x400) ::
        .unit (0xDC00 + (c.toNat - 0x10000) % 0x400) :: pieces) (c :: cs)

/-- A string may be made of its characters as they are. -/
theorem names_chars (cs : List Char) : Names (cs.map .char) cs := by
  induction cs with
  | nil => exact .nil
  | cons c cs ih => exact .char c ih

/-- Whether a piece is a character that is written as it is, or after a backslash. -/
def Piece.isPlain : Piece → Bool
  | .char c => 0x20 ≤ c.toNat
  | .unit _ => false

theorem Piece.spelled_render {piece : Piece} (h : piece.isPlain = true) :
    piece.Spelled piece.render := by
  cases piece with
  | unit n => cases h
  | char c =>
    have hcontrol : 0x20 ≤ c.toNat := of_decide_eq_true h
    rw [render]
    split
    · rename_i hescape
      rcases hescape with rfl | rfl <;> exact .escaped (by simp [escapes])
    · rename_i hescape
      rw [if_neg (Nat.not_lt.mpr hcontrol)]
      exact .plain (fun hc => hescape (Or.inl hc)) (fun hc => hescape (Or.inr hc)) hcontrol

theorem spellsString_render {pieces : List Piece} (h : ∀ piece ∈ pieces, piece.isPlain = true) :
    SpellsString pieces (pieces.flatMap Piece.render) := by
  induction pieces with
  | nil => exact .nil
  | cons piece pieces ih =>
    obtain ⟨hpiece, hrest⟩ := List.forall_mem_cons.mp h
    exact .cons (Piece.spelled_render hpiece) (ih hrest)

/-- A unit that is no half of a character stands for the character with its number. -/
theorem joinPieces_unit {n : Nat} (hhigh : isHighUnit n = false) (hlow : isLowUnit n = false)
    (pieces : List Piece) :
    joinPieces (.unit n :: pieces) = (joinPieces pieces).map (Char.ofNat n :: ·) := by
  rcases pieces with _ | ⟨_ | _, pieces⟩ <;> simp [joinPieces, hhigh, hlow]

/-- The pieces of a string are put together to its characters. -/
theorem joinPieces_of_names {pieces : List Piece} {cs : List Char} (h : Names pieces cs) :
    joinPieces pieces = some cs := by
  induction h with
  | nil => rfl
  | char c hrest ih => rw [joinPieces, ih, Option.map_some]
  | @unit pieces cs c hunit hrest ih =>
    have hvalid : c.toNat < 0xD800 ∨ 0xDFFF < c.toNat ∧ c.toNat < 0x110000 := c.valid
    have hhigh : isHighUnit c.toNat = false := by
      simp only [isHighUnit, Bool.and_eq_false_iff, decide_eq_false_iff_not]
      omega
    have hlow : isLowUnit c.toNat = false := by
      simp only [isLowUnit, Bool.and_eq_false_iff, decide_eq_false_iff_not]
      omega
    rw [joinPieces_unit hhigh hlow, ih, Option.map_some, Char.ofNat_toNat]
  | @pair pieces cs c hpair hrest ih =>
    have hvalid : c.toNat < 0xD800 ∨ 0xDFFF < c.toNat ∧ c.toNat < 0x110000 := c.valid
    have hhigh : isHighUnit (0xD800 + (c.toNat - 0x10000) / 0x400) = true := by
      simp only [isHighUnit, Bool.and_eq_true, decide_eq_true_eq]
      omega
    have hlow : isLowUnit (0xDC00 + (c.toNat - 0x10000) % 0x400) = true := by
      simp only [isLowUnit, Bool.and_eq_true, decide_eq_true_eq]
      omega
    have hnumber : 0x10000 + (0xD800 + (c.toNat - 0x10000) / 0x400 - 0xD800) * 0x400 +
        (0xDC00 + (c.toNat - 0x10000) % 0x400 - 0xDC00) = c.toNat := by omega
    rw [joinPieces, if_pos hhigh, if_pos hlow, ih, Option.map_some, hnumber, Char.ofNat_toNat]

/-! ## Numbers -/

namespace Numeral

/-- At least one digit, and nothing else. -/
def IsDigits (ds : List Char) : Prop := ds ≠ [] ∧ ∀ c ∈ ds, c.isDigit = true

/-- The ways of writing a fraction. -/
inductive SpellsFraction : Option (List Char) → List Char → Prop where
  /-- There may be none. -/
  | none : SpellsFraction none []
  /-- If there is one, it comes after a point. -/
  | some {ds : List Char} (hdigits : IsDigits ds) : SpellsFraction (some ds) ('.' :: ds)

/-- The ways of writing an exponent. -/
inductive SpellsExponent : Option (Bool × List Char) → List Char → Prop where
  /-- There may be none. -/
  | none : SpellsExponent none []
  /-- If there is one, it comes after either letter; its sign may be left out if it is a plus. -/
  | some {letter : Char} {negative : Bool} {sign ds : List Char}
      (hletter : letter = 'e' ∨ letter = 'E')
      (hsign : (negative, sign) ∈ [(true, ['-']), (false, []), (false, ['+'])])
      (hdigits : IsDigits ds) : SpellsExponent (some (negative, ds)) (letter :: (sign ++ ds))

/-- The ways of writing a number: a minus perhaps, digits without needless zeros in front, perhaps
a fraction, and perhaps an exponent. -/
inductive Spelled (n : Numeral) : List Char → Prop where
  /-- The parts are written one after another. -/
  | intro {fraction exponent : List Char} (hwhole : IsDigits n.whole)
      (hlead : n.whole.head? = some '0' → n.whole.length = 1)
      (hfraction : SpellsFraction n.fraction fraction)
      (hexponent : SpellsExponent n.exponent exponent) :
      Spelled n <| (if n.negative then ['-'] else []) ++ (n.whole ++ (fraction ++ exponent))

variable {rest : List Char}

/-- Digits are taken as far as they go. -/
theorem scanDigits_of_isDigits {ds : List Char} (h : IsDigits ds)
    (hrest : ∀ c ∈ rest.head?, c.isDigit = false) :
    scanDigits (ds ++ rest) = some (ds, rest) := by
  have hstop : rest.takeWhile Char.isDigit = [] ∧ rest.dropWhile Char.isDigit = rest := by
    cases rest with
    | nil => exact ⟨rfl, rfl⟩
    | cons c rest => simp [hrest c rfl]
  rw [scanDigits, List.takeWhile_append_of_pos h.2, List.dropWhile_append_of_pos h.2, hstop.1,
    hstop.2, List.append_nil]
  simp [h.1]

/-- Digits begin with a digit. -/
theorem IsDigits.exists_cons {ds : List Char} (h : IsDigits ds) :
    ∃ c cs, ds = c :: cs ∧ c.isDigit = true := by
  obtain ⟨c, cs, rfl⟩ := List.exists_cons_of_ne_nil h.1
  exact ⟨c, cs, rfl, h.2 c List.mem_cons_self⟩

/-- What comes after the digits of a fraction is no digit and no point. -/
theorem head_exponent {exponent : Option (Bool × List Char)} {word : List Char}
    (h : SpellsExponent exponent word) (hrest : Ends rest) :
    ∀ c ∈ (word ++ rest).head?, c.isDigit = false ∧ c ≠ '.' := by
  cases h with
  | none => exact fun c hc => ⟨(hrest c hc).1, (hrest c hc).2.1⟩
  | some hletter hsign hdigits =>
    rintro c ⟨⟩
    rcases hletter with rfl | rfl <;> decide

/-- What comes after the digits before the point is no digit. -/
theorem head_fraction {fraction : Option (List Char)} {word : List Char}
    (h : SpellsFraction fraction word) (hrest : ∀ c ∈ rest.head?, c.isDigit = false) :
    ∀ c ∈ (word ++ rest).head?, c.isDigit = false := by
  cases h with
  | none => exact hrest
  | some hdigits =>
    rintro c ⟨⟩
    decide

theorem scanFraction_of_spells {fraction : Option (List Char)} {word : List Char}
    (h : SpellsFraction fraction word)
    (hrest : ∀ c ∈ rest.head?, c.isDigit = false ∧ c ≠ '.') :
    scanFraction (word ++ rest) = some (fraction, rest) := by
  cases h with
  | none =>
    cases rest with
    | nil => rfl
    | cons c rest => simp [scanFraction, (hrest c rfl).2]
  | some hdigits =>
    have hscan := scanDigits_of_isDigits hdigits fun c hc => (hrest c hc).1
    rw [List.cons_append, scanFraction, hscan, Option.map_some]

theorem scanExponent_of_spells {exponent : Option (Bool × List Char)} {word : List Char}
    (h : SpellsExponent exponent word) (hrest : Ends rest) :
    scanExponent (word ++ rest) = some (exponent, rest) := by
  cases h with
  | none => exact scanExponent_of_ends hrest
  | @some letter negative sign ds hletter hsign hdigits =>
    have hscan := scanDigits_of_isDigits hdigits fun c hc => (hrest c hc).1
    have hsigned : scanSign (sign ++ (ds ++ rest)) = (negative, ds ++ rest) := by
      simp only [List.mem_cons, Prod.mk.injEq, List.not_mem_nil, or_false] at hsign
      rcases hsign with ⟨rfl, rfl⟩ | ⟨rfl, rfl⟩ | ⟨rfl, rfl⟩
      · rfl
      · obtain ⟨c, cs, rfl, hc⟩ := hdigits.exists_cons
        rw [List.nil_append, List.cons_append]
        unfold scanSign
        split
        · rename_i heq
          rw [(List.cons.inj heq).1] at hc
          exact absurd hc (by decide)
        · rename_i heq
          rw [(List.cons.inj heq).1] at hc
          exact absurd hc (by decide)
        · rfl
      · rfl
    rw [List.cons_append, List.append_assoc, scanExponent, if_pos hletter, hsigned]
    dsimp only
    rw [hscan, Option.map_some]

theorem scanMinus_of_digits {negative : Bool} {ds : List Char} (h : IsDigits ds) :
    scanMinus ((if negative then ['-'] else []) ++ (ds ++ rest)) = (negative, ds ++ rest) := by
  cases negative with
  | true => rfl
  | false =>
    obtain ⟨c, cs, rfl, hc⟩ := h.exists_cons
    change scanMinus (c :: (cs ++ rest)) = _
    unfold scanMinus
    split
    · rename_i heq
      rw [(List.cons.inj heq).1] at hc
      exact absurd hc (by decide)
    · rfl

/-- A number is read from any of its spellings, in a text that does not go on with it. -/
theorem scan_of_spelled {n : Numeral} {word : List Char} (h : n.Spelled word)
    (hrest : Ends rest) : scan (word ++ rest) = some (n, rest) := by
  obtain @⟨fraction, exponent, hwhole, hlead, hfraction, hexponent⟩ := h
  have hafter := head_exponent hexponent hrest
  have hdigits := scanDigits_of_isDigits hwhole
    (head_fraction hfraction fun c hc => (hafter c hc).1)
  have hscan : scanWhole (n.whole ++ (fraction ++ (exponent ++ rest))) =
      some (n.whole, fraction ++ (exponent ++ rest)) := by
    rw [scanWhole, hdigits]
    refine if_neg ?_
    rintro ⟨hzero, hlong⟩
    exact hlong (hlead hzero)
  simp only [List.append_assoc, scan, scanMinus_of_digits hwhole, hscan,
    scanFraction_of_spells hfraction hafter, scanExponent_of_spells hexponent hrest,
    Option.bind_eq_bind, Option.bind_some]
  rfl

/-- A natural number may be written with its digits. -/
theorem spelled_ofNat (n : Nat) : (ofNat n).Spelled (ofNat n).render := by
  have hdigits : IsDigits (Nat.toDigits 10 n) := ⟨Nat.toDigits_ne_nil, fun c hc =>
    Nat.isDigit_of_mem_toDigits (by decide) (by decide) hc⟩
  have hlead : (Nat.toDigits 10 n).head? = some '0' → (Nat.toDigits 10 n).length = 1 := by
    intro hzero
    obtain rfl : n = 0 := by
      by_contra hn
      exact head?_toDigits_ne hn hzero
    rfl
  have hspelled : (ofNat n).Spelled _ := .intro hdigits hlead .none .none
  simpa [ofNat, render] using hspelled

end Numeral

/-! ## Tokens and texts -/

/-- Whether a token is a number. -/
def Token.isNumber : Token → Bool
  | .number _ => true
  | _ => false

/-- Whether a token is a mark or a word, which is written in one way only. -/
def Token.isFixed : Token → Bool
  | .string _ | .number _ | .junk => false
  | _ => true

/-- The ways of writing a token. -/
inductive Token.Spelled : Token → List Char → Prop where
  /-- Marks and words have one spelling. -/
  | fixed {t : Token} (h : t.isFixed = true) : Spelled t t.render
  /-- Strings are written in quotes. -/
  | string {pieces : List Piece} {cs : List Char} (h : SpellsString pieces cs) :
      Spelled (.string pieces) ('"' :: (cs ++ ['"']))
  /-- Numbers are written as numerals. -/
  | number {n : Numeral} {cs : List Char} (h : n.Spelled cs) : Spelled (.number n) cs

/-- The ways of writing a text: with any blanks before, between and after its tokens. -/
inductive Spells : List Token → List Char → Prop where
  /-- Nothing is written for no tokens. -/
  | nil : Spells [] []
  /-- A blank may be written anywhere between tokens. -/
  | blank {ts : List Token} {c : Char} {cs : List Char} (hblank : isBlank c = true)
      (hrest : Spells ts cs) : Spells ts (c :: cs)
  /-- A token is written in any of its ways. -/
  | token {t : Token} {ts : List Token} {word cs : List Char} (htoken : t.Spelled word)
      (hrest : Spells ts cs) : Spells (t :: ts) (word ++ cs)

/-- Whether a token is a mark, a word, a string of plain characters or a natural number. -/
def Token.isPlain : Token → Bool
  | .string pieces => pieces.all Piece.isPlain
  | .number n => n = .ofNat (Nat.ofDigitChars 10 n.whole 0)
  | t => t.isFixed

theorem Token.spelled_render {t : Token} (h : t.isPlain = true) : t.Spelled t.render := by
  cases t with
  | string pieces => exact .string (spellsString_render (List.all_eq_true.mp h))
  | number n =>
    have hn : n = .ofNat _ := of_decide_eq_true h
    rw [hn]
    exact .number (Numeral.spelled_ofNat _)
  | junk => cases h
  | _ => exact .fixed rfl

/-- Plain tokens may be written one after another, with the same blanks before each of them. -/
theorem spells_flatMap (blanks : List Char) (hblanks : blanks.all isBlank = true)
    {ts : List Token} {cs : List Char} (h : ts.all Token.isPlain = true)
    (hcs : cs = ts.flatMap fun t => blanks ++ t.render) : Spells ts cs := by
  have hskip {us : List Token} {cs : List Char} (hus : Spells us cs) :
      Spells us (blanks ++ cs) := by
    clear hcs
    induction blanks with
    | nil => exact hus
    | cons c blanks ih =>
      rw [List.all_cons, Bool.and_eq_true] at hblanks
      exact .blank hblanks.1 (ih hblanks.2)
  subst hcs
  induction ts with
  | nil => exact .nil
  | cons t ts ih =>
    rw [List.all_cons, Bool.and_eq_true] at h
    rw [List.flatMap_cons, List.append_assoc]
    exact hskip (.token (Token.spelled_render h.1) (ih h.2))

/-- A token that begins with a minus is a number. -/
theorem Token.scan_minus (cs : List Char) :
    Token.scan ('-' :: cs) = (Numeral.scan ('-' :: cs)).map fun n => (.number n.1, n.2) := rfl

/-- A number begins with a digit or a minus. -/
theorem Numeral.Spelled.exists_cons {n : Numeral} {word : List Char} (h : n.Spelled word) :
    ∃ c cs, word = c :: cs ∧ (c.isDigit = true ∨ c = '-') := by
  obtain @⟨fraction, exponent, hwhole, hlead, hfraction, hexponent⟩ := h
  obtain ⟨c, cs, hcs, hc⟩ := hwhole.exists_cons
  cases n.negative with
  | true => exact ⟨'-', _, rfl, Or.inr rfl⟩
  | false => exact ⟨c, _, by rw [hcs]; rfl, Or.inl hc⟩

/-- A token is read from any of its spellings, if it is no number that goes on. -/
theorem Token.scan_of_spelled {t : Token} {word rest : List Char} (h : t.Spelled word)
    (hends : t.isNumber = true → Numeral.Ends rest) :
    Token.scan (word ++ rest) = some (t, rest) := by
  cases h with
  | fixed h =>
    cases t with
    | bool value => cases value <;> rfl
    | string => cases h
    | number => cases h
    | junk => cases h
    | _ => rfl
  | @string pieces cs h =>
    have hscan := scanString_of_spells h rest
    rw [List.cons_append, List.append_assoc, List.singleton_append, scan]
    change scanLong '"' _ = _
    rw [scanLong, if_pos rfl, hscan, Option.map_some]
  | number h =>
    have hscan := Numeral.scan_of_spelled h (hends rfl)
    obtain ⟨c, cs, rfl, hc⟩ := h.exists_cons
    rw [List.cons_append] at hscan ⊢
    rcases hc with hc | rfl
    · rw [Token.scan_digit hc, hscan, Option.map_some]
    · rw [Token.scan_minus, hscan, Option.map_some]

/-- Whether no two numbers stand next to each other, as in every well-formed text. -/
def Apart (ts : List Token) : Prop :=
  ts.IsChain fun t u => ¬(t.isNumber = true ∧ u.isNumber = true)

/-- Numbers on both sides of a mark are apart. -/
theorem apart_append_cons_iff {t : Token} {ts us : List Token} (h : t.isNumber = false) :
    Apart (ts ++ t :: us) ↔ Apart ts ∧ Apart us := by
  simp only [Apart, List.isChain_append, List.isChain_cons, List.head?_cons, Option.mem_def,
    Option.some.injEq, forall_eq', h, Bool.false_eq_true, and_false, false_and, not_false_eq_true,
    implies_true, and_true, true_and]

theorem apart_cons_iff {t : Token} {ts : List Token} (h : t.isNumber = false) :
    Apart (t :: ts) ↔ Apart ts := by
  have hnone : Apart [] := List.isChain_nil
  rw [← List.nil_append (t :: ts), apart_append_cons_iff h, and_iff_right hnone]

/-- No number goes on with a text that begins with another token or a blank. -/
theorem ends_of_spells {ts : List Token} {cs : List Char} (h : Spells ts cs)
    (hhead : ∀ t ∈ ts.head?, t.isNumber = false) : Numeral.Ends cs := by
  cases h with
  | nil => exact fun c hc => by cases hc
  | blank hblank hrest =>
    rintro c ⟨⟩
    simp only [isBlank, Bool.or_eq_true, beq_iff_eq] at hblank
    rcases hblank with ((rfl | rfl) | rfl) | rfl <;> decide
  | @token t ts word cs htoken hrest =>
    have ht : t.isNumber = false := hhead t rfl
    cases htoken with
    | fixed h =>
      rintro c hc
      cases t with
      | bool value => cases value <;> (cases hc; decide)
      | string => cases h
      | number => cases h
      | junk => cases h
      | _ => cases hc; decide
    | string h =>
      rintro c ⟨⟩
      decide
    | number h => cases ht

/-- A text is read as the tokens that it spells. -/
theorem tokens_of_spells {ts : List Token} {cs : List Char} (h : Spells ts cs)
    (hapart : Apart ts) : tokens cs = ts := by
  induction h with
  | nil => rw [tokens]
  | blank hblank hrest ih => rw [tokens, if_pos hblank, ih hapart]
  | @token t ts word cs htoken hrest ih =>
    obtain ⟨hhead, htail⟩ := List.isChain_cons.mp hapart
    have hends : t.isNumber = true → Numeral.Ends cs := fun ht =>
      ends_of_spells hrest fun u hu => Bool.eq_false_iff.mpr fun hnumber => hhead u hu ⟨ht, hnumber⟩
    rw [tokens_of_scan (Token.scan_of_spelled htoken hends), ih htail]

end LeftRight.Json
