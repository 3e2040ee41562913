import RegisterMachine.Span

/-!
# `RegisterMachine.Diagnostic` — what is reported when something fails

A diagnostic has a kind, a message for the reader, and the span of the source
it is about if it is about one.  Whoever finds the fault may not know the place:
the machine executes instructions, not lines.  So a diagnostic may be made
without a span and given one later by `orSpan`, which never takes a span away
from one that has it: the first place named is the more precise one.
-/

namespace RegisterMachine

namespace Diagnostic

/-- The kinds of fault -/
inductive Kind where
  | parse
  | unknownLabel
  | uninitializedRegister
  | emptyCallStack
  | divisionByZero
  | overflow
  | stepLimitExceeded
  | io
  deriving DecidableEq, Inhabited

/-- What a kind is called in front of a message -/
def Kind.title : Kind → String
  | .parse => "Parse error"
  | .unknownLabel => "Unknown label"
  | .uninitializedRegister => "Uninitialized register"
  | .emptyCallStack => "Empty call stack"
  | .divisionByZero => "Division by zero"
  | .overflow => "Arithmetic overflow"
  | .stepLimitExceeded => "Step limit exceeded"
  | .io => "I/O error"

end Diagnostic

/-- A fault, put into words -/
structure Diagnostic where
  kind : Diagnostic.Kind
  message : String
  span : Option Span
  deriving DecidableEq, Inhabited

namespace Diagnostic

/-- The diagnostic with a span, unless it already has one -/
def orSpan (d : Diagnostic) (span : Option Span) : Diagnostic :=
  { d with span := d.span.or span }

/-- The title and the message -/
def text (d : Diagnostic) : String :=
  d.kind.title ++ ": " ++ d.message

end Diagnostic

end RegisterMachine
