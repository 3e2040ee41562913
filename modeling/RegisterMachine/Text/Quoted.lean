import RegisterMachine.Text.Printable
import RegisterMachine.Text.GraphemeExtend

/-!
# `RegisterMachine.Text.Quoted` — a text in double quotes

The quoted form shows a text so that its ends and every character in it can be
told: the quote, the backslash and the common control characters have escapes
of two characters, whatever else has no shape of its own is written as
`\u{…}` with its code point in hexadecimal, and all other characters stand for
themselves.  A character that is drawn onto the one before it has no shape of
its own either: behind the opening quote it would merge with the quote.  The
single quote needs no escape between double quotes.
-/

namespace RegisterMachine.Text

/-- The code point of a character in lower-case hexadecimal -/
def hexDigits (c : Char) : List Char :=
  Nat.toDigits 16 c.toNat

/-- One character as it stands between the quotes -/
def escape (c : Char) : List Char :=
  if c = '"' then ['\\', '"']
  else if c = '\\' then ['\\', '\\']
  else if c = '\t' then ['\\', 't']
  else if c = '\r' then ['\\', 'r']
  else if c = '\n' then ['\\', 'n']
  else if c.toNat = 0 then ['\\', '0']
  else if isPrintable c && !isDrawnOnto c then [c]
  else ['\\', 'u', '\x7b'] ++ hexDigits c ++ ['\x7d']

/-- The text between double quotes -/
def quoted (s : String) : String :=
  String.ofList ('"' :: (s.toList.flatMap escape ++ ['"']))

end RegisterMachine.Text
