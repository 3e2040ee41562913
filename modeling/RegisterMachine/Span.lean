/-!
# `RegisterMachine.Span` — a range of bytes in a source

A span runs from its first byte to the byte behind its last.  Nothing here asks
that `start ≤ stop`: a span is a pair of positions, and the two operations are
those a parser needs, to join two places and to move a place found in a line to
where the line stands in the source.
-/

namespace RegisterMachine

/-- A range of bytes, its end excluded -/
structure Span where
  start : Nat
  stop : Nat
  deriving DecidableEq, Inhabited

namespace Span

/-- The least span around two spans -/
def expand (s t : Span) : Span :=
  ⟨min s.start t.start, max s.stop t.stop⟩

/-- The span moved towards the end of the source -/
def shift (s : Span) (n : Nat) : Span :=
  ⟨s.start + n, s.stop + n⟩

end Span

end RegisterMachine
