import LeftRight.Json.Numeral

/-!
# Tokens

A JSON text as the sequence of its tokens. The text is read up to the first place at which no
token begins, and a mark stands for the rest: a reader that meets an earlier mistake never
comes to know of it. Escapes for halves of a character are kept as they are written, because
only a reader who wants to know the string cares whether they match.
-/

namespace LeftRight.Json

/-- A part of a quoted string. -/
inductive Piece where
  /-- A character, however written. -/
  | char (c : Char)
  /-- A 16-bit unit by its number, which is a character or half of one. -/
  | unit (number : Nat)
  deriving DecidableEq, Repr

/-- A token of a text. -/
inductive Token where
  /-- An opening brace. -/
  | openBrace
  /-- A closing brace. -/
  | closeBrace
  /-- An opening bracket. -/
  | openBracket
  /-- A closing bracket. -/
  | closeBracket
  /-- A comma. -/
  | comma
  /-- A colon. -/
  | colon
  /-- The word for nothing. -/
  | null
  /-- One of the two words for truth values. -/
  | bool (value : Bool)
  /-- A quoted string. -/
  | string (pieces : List Piece)
  /-- A number. -/
  | number (numeral : Numeral)
  /-- From here on the text is not made of tokens. -/
  | junk
  deriving DecidableEq, Repr

/-- The four blank characters. -/
def isBlank (c : Char) : Bool := c == ' ' || c == '\n' || c == '\t' || c == '\r'

/-- The first half of a character that needs two units. -/
def isHighUnit (n : Nat) : Bool := 0xD800 ≤ n && n < 0xDC00

/-- The second half of a character that needs two units. -/
def isLowUnit (n : Nat) : Bool := 0xDC00 ≤ n && n < 0xE000

/-- The string that is made of some pieces, if every half has its other half. -/
def joinPieces : List Piece → Option (List Char)
  | [] => some []
  | .char c :: rest => (joinPieces rest).map (c :: ·)
  | .unit high :: .unit low :: rest =>
    if isHighUnit high then
      if isLowUnit low then
        (joinPieces rest).map
          (Char.ofNat (0x10000 + (high - 0xD800) * 0x400 + (low - 0xDC00)) :: ·)
      else none
    else if isLowUnit high then none
    else (joinPieces (.unit low :: rest)).map (Char.ofNat high :: ·)
  | .unit n :: rest =>
    if isHighUnit n || isLowUnit n then none else (joinPieces rest).map (Char.ofNat n :: ·)

/-- The value of a hexadecimal digit. -/
def hexValue (c : Char) : Option Nat :=
  if '0' ≤ c ∧ c ≤ '9' then some (c.toNat - '0'.toNat)
  else if 'a' ≤ c ∧ c ≤ 'f' then some (c.toNat - 'a'.toNat + 10)
  else if 'A' ≤ c ∧ c ≤ 'F' then some (c.toNat - 'A'.toNat + 10)
  else none

/-- The unit with these four hexadecimal digits. -/
def unitOf (a b c d : Char) : Option Nat := do
  return (((← hexValue a) * 16 + (← hexValue b)) * 16 + (← hexValue c)) * 16 + (← hexValue d)

/-- The character that a letter after a backslash stands for. -/
def unescape (c : Char) : Option Char :=
  if c = '"' ∨ c = '\\' ∨ c = '/' then some c
  else if c = 'b' then some '\x08'
  else if c = 'f' then some '\x0c'
  else if c = 'n' then some '\n'
  else if c = 'r' then some '\r'
  else if c = 't' then some '\t'
  else none

/-- The rest of a string after its opening quote, and what follows the closing one. -/
def scanString : List Char → Option (List Piece × List Char)
  | [] => none
  | c :: rest =>
    if c = '"' then some ([], rest)
    else if c = '\\' then
      match rest with
      | 'u' :: a :: b :: c :: d :: rest =>
        (unitOf a b c d).bind fun number =>
          (scanString rest).map fun s => (.unit number :: s.1, s.2)
      | letter :: rest =>
        (unescape letter).bind fun c => (scanString rest).map fun s => (.char c :: s.1, s.2)
      | [] => none
    else if c.toNat < 0x20 then none
    else (scanString rest).map fun s => (.char c :: s.1, s.2)

/-- What follows a word, if the text begins with it. -/
def scanWord : List Char → List Char → Option (List Char)
  | [], cs => some cs
  | w :: ws, c :: cs => if w = c then scanWord ws cs else none
  | _ :: _, [] => none

/-- The token that a character is by itself. -/
def Token.ofMark? (c : Char) : Option Token :=
  if c = '\x7b' then some .openBrace
  else if c = '\x7d' then some .closeBrace
  else if c = '[' then some .openBracket
  else if c = ']' then some .closeBracket
  else if c = ',' then some .comma
  else if c = ':' then some .colon
  else none

/-- The rest of a token that begins with this character, if it is more than a mark. -/
def Token.scanLong (c : Char) (rest : List Char) : Option (Token × List Char) :=
  if c = '"' then (scanString rest).map fun s => (.string s.1, s.2)
  else if c = 'n' then (scanWord ['u', 'l', 'l'] rest).map (.null, ·)
  else if c = 't' then (scanWord ['r', 'u', 'e'] rest).map (.bool true, ·)
  else if c = 'f' then (scanWord ['a', 'l', 's', 'e'] rest).map (.bool false, ·)
  else (Numeral.scan (c :: rest)).map fun n => (.number n.1, n.2)

/-- The token at the beginning of a text, and what follows it. -/
def Token.scan : List Char → Option (Token × List Char)
  | [] => none
  | c :: rest =>
    match Token.ofMark? c with
    | some token => some (token, rest)
    | none => Token.scanLong c rest

theorem length_scanString {cs rest : List Char} {pieces : List Piece}
    (h : scanString cs = some (pieces, rest)) : rest.length ≤ cs.length := by
  fun_induction scanString cs generalizing pieces rest with
  | case1 => simp at h
  | case2 r =>
    obtain ⟨-, rfl⟩ := Prod.mk.inj (Option.some.inj h)
    simp
  | case3 =>
    rename_i ih
    obtain ⟨_, -, h⟩ := Option.bind_eq_some_iff.mp h
    obtain ⟨⟨p, r⟩, hr, h⟩ := Option.map_eq_some_iff.mp h
    obtain ⟨-, rfl⟩ := Prod.mk.inj h
    have := ih hr
    simp only [List.length_cons]
    omega
  | case4 =>
    rename_i ih
    obtain ⟨_, -, h⟩ := Option.bind_eq_some_iff.mp h
    obtain ⟨⟨p, r⟩, hr, h⟩ := Option.map_eq_some_iff.mp h
    obtain ⟨-, rfl⟩ := Prod.mk.inj h
    have := ih hr
    simp only [List.length_cons]
    omega
  | case5 => simp at h
  | case6 => simp at h
  | case7 =>
    rename_i ih
    obtain ⟨⟨p, r⟩, hr, h⟩ := Option.map_eq_some_iff.mp h
    obtain ⟨-, rfl⟩ := Prod.mk.inj h
    have := ih hr
    simp only [List.length_cons]
    omega

theorem length_scanWord {word cs rest : List Char} (h : scanWord word cs = some rest) :
    rest.length ≤ cs.length := by
  fun_induction scanWord word cs with
  | case1 cs => simp_all
  | case2 w ws cs ih =>
    have := ih h
    simp only [List.length_cons]
    omega
  | case3 => simp at h
  | case4 => simp at h

/-- A token takes the character with which it begins. -/
theorem Token.length_scanLong {c : Char} {cs rest : List Char} {token : Token}
    (h : Token.scanLong c cs = some (token, rest)) : rest.length ≤ cs.length := by
  have word {word : List Char} {t : Token}
      (hw : (scanWord word cs).map (t, ·) = some (token, rest)) : rest.length ≤ cs.length := by
    obtain ⟨r, hr, hw⟩ := Option.map_eq_some_iff.mp hw
    obtain ⟨-, rfl⟩ := Prod.mk.inj hw
    exact length_scanWord hr
  unfold scanLong at h
  split at h
  · obtain ⟨⟨p, r⟩, hr, h⟩ := Option.map_eq_some_iff.mp h
    obtain ⟨-, rfl⟩ := Prod.mk.inj h
    exact length_scanString hr
  split at h
  · exact word h
  split at h
  · exact word h
  split at h
  · exact word h
  · obtain ⟨⟨n, r⟩, hr, h⟩ := Option.map_eq_some_iff.mp h
    obtain ⟨-, rfl⟩ := Prod.mk.inj h
    exact Nat.le_of_lt_succ (Numeral.length_scan hr)

/-- A token takes at least one character. -/
theorem Token.length_scan {cs rest : List Char} {token : Token}
    (h : Token.scan cs = some (token, rest)) : rest.length < cs.length := by
  cases cs with
  | nil => simp [scan] at h
  | cons c cs =>
    rw [scan] at h
    split at h
    · obtain ⟨-, rfl⟩ := Prod.mk.inj (Option.some.inj h)
      exact Nat.lt_succ_self _
    · exact Nat.lt_succ_of_le (length_scanLong h)

/-- The tokens of a text, up to the first place at which no token begins. -/
def tokens : List Char → List Token
  | [] => []
  | c :: rest =>
    if isBlank c then tokens rest
    else match _h : Token.scan (c :: rest) with
      | none => [.junk]
      | some (token, rest') => token :: tokens rest'
  termination_by cs => cs.length
  decreasing_by
    · exact Nat.lt_succ_self _
    · exact Token.length_scan _h

/-- The hexadecimal digits of a unit. -/
def unitDigits (n : Nat) : List Char :=
  let digits := Nat.toDigits 16 n
  List.replicate (4 - digits.length) '0' ++ digits

/-- The characters of a piece of a string. -/
def Piece.render : Piece → List Char
  | char c =>
    if c = '"' ∨ c = '\\' then ['\\', c]
    else if c.toNat < 0x20 then '\\' :: 'u' :: unitDigits c.toNat
    else [c]
  | unit n => '\\' :: 'u' :: unitDigits n

/-- The characters of a token. -/
def Token.render : Token → List Char
  | openBrace => ['\x7b']
  | closeBrace => ['\x7d']
  | openBracket => ['[']
  | closeBracket => [']']
  | comma => [',']
  | colon => [':']
  | null => ['n', 'u', 'l', 'l']
  | bool true => ['t', 'r', 'u', 'e']
  | bool false => ['f', 'a', 'l', 's', 'e']
  | string pieces => '"' :: pieces.flatMap Piece.render ++ ['"']
  | number numeral => numeral.render
  | junk => []

/-- A text that is made of some tokens, without blanks. -/
def render (tokens : List Token) : List Char := tokens.flatMap Token.render

/-- The string token for a text. -/
def Token.ofString (s : String) : Token := .string (s.toList.map .char)

/-- The number token for a natural number. -/
def Token.ofNat (n : Nat) : Token := .number (.ofNat n)

end LeftRight.Json
