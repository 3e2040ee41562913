import RegisterMachine.Text.Ranges

/-!
# `RegisterMachine.Text.WhiteSpace` — white space, and trimming it off

White space is the Unicode property `White_Space`: twenty-five characters, among
them the no-break space and the ideographic space.  It decides where a line
ends for a reader (`trimEnd`) and what counts as an empty message template
(`trim`).  It is *not* what separates tokens or the parts of a template; these
know fewer blanks and keep their own classes.
-/

namespace RegisterMachine.Text

/-- The characters of the property, as ranges in ascending order -/
def whiteSpaceRanges : List (Nat × Nat) :=
  [(0x0009, 0x000D), (0x0020, 0x0020), (0x0085, 0x0085), (0x00A0, 0x00A0), (0x1680, 0x1680),
   (0x2000, 0x200A), (0x2028, 0x2029), (0x202F, 0x202F), (0x205F, 0x205F), (0x3000, 0x3000)]

/-- Whether a character is white space -/
def isWhiteSpace (c : Char) : Bool :=
  inRanges whiteSpaceRanges c

/-- The text without the white space it starts with -/
def trimStart (cs : List Char) : List Char :=
  cs.dropWhile isWhiteSpace

/-- The text without the white space it ends with -/
def trimEnd (cs : List Char) : List Char :=
  (cs.reverse.dropWhile isWhiteSpace).reverse

/-- The text without white space at either end -/
def trim (cs : List Char) : List Char :=
  trimEnd (trimStart cs)

/-- What `trimEnd` takes away is white space at the end -/
theorem trimEnd_append (cs : List Char) :
    trimEnd cs ++ (cs.reverse.takeWhile isWhiteSpace).reverse = cs := by
  rw [trimEnd, ← List.reverse_append, List.takeWhile_append_dropWhile, List.reverse_reverse]

end RegisterMachine.Text
