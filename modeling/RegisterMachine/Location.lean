import RegisterMachine.Span

/-!
# `RegisterMachine.Location` — lines and columns of a text

A report names a place by the line it is on and its column there, both counted
from one.  The place is given by the number of characters before it.

A line ends after each of these, if there is text behind it:

    U+000A                      line feed
    U+000D                      carriage return, with a line feed behind it if there is one
    U+000B U+000C               vertical tab, form feed
    U+0085 U+2028 U+2029        next line, line separator, paragraph separator

At the end of the text no line is begun: the end belongs to the last line that
has a character on it.  Behind the end there is no location.
-/

namespace RegisterMachine

/-- A line and a column, both counted from one -/
structure Location where
  line : Nat
  column : Nat
  deriving DecidableEq, Inhabited

namespace Location

/-- Whether a line ends after a character, the given text behind it -/
def endsLine (c : Char) (behind : List Char) : Bool :=
  if c = '\r' then behind.head? != some '\n'
  else c = '\n' || c = '\x0b' || c = '\x0c' || c = '\u0085' || c = '\u2028' || c = '\u2029'

/-- The start of the line behind this place -/
def nextLine (l : Location) : Location :=
  ⟨l.line + 1, 1⟩

/-- One column further on the same line -/
def nextColumn (l : Location) : Location :=
  ⟨l.line, l.column + 1⟩

/-- The location a number of characters behind a known one -/
def advance (l : Location) : Nat → List Char → Option Location
  | 0, _ => some l
  | _ + 1, [] => none
  | n + 1, c :: cs =>
    if endsLine c cs && !cs.isEmpty then l.nextLine.advance n cs else l.nextColumn.advance n cs

/-- The location in a text with a number of characters before it -/
def find? (text : String) (index : Nat) : Option Location :=
  advance ⟨1, 1⟩ index text.toList

end Location

end RegisterMachine
