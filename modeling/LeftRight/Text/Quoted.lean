import LeftRight.Text.Displayable
import LeftRight.Text.Inspection

/-!
# Quoted text

The inspection text of a string stands in double quotes. Inside, a quote and a backslash
follow a backslash, the four common control characters have letters, and every other
character that is not displayable is written by its code point.
-/

namespace LeftRight.Text

/-- The lower-case hexadecimal digits of a number, without leading zeros. -/
def hexadecimal (n : Nat) : List Char := Nat.toDigits 16 n

/-- How one character is written between quotes. -/
def escape (c : Char) : List Char :=
  if c = '\x00' then ['\\', '0']
  else if c = '\t' then ['\\', 't']
  else if c = '\r' then ['\\', 'r']
  else if c = '\n' then ['\\', 'n']
  else if c = '\\' ∨ c = '"' then ['\\', c]
  else if isDisplayable c then [c]
  else ['\\', 'u', '\x7b'] ++ hexadecimal c.toNat ++ ['\x7d']

/-- A string in double quotes. -/
def quote (s : String) : String := String.ofList ('"' :: s.toList.flatMap escape ++ ['"'])

end LeftRight.Text

namespace LeftRight

instance : Inspectable String := ⟨fun s => .atom (Text.quote s)⟩

end LeftRight
