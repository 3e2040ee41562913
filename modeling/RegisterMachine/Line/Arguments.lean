import RegisterMachine.Instruction
import RegisterMachine.Token

/-!
# `RegisterMachine.Line.Arguments` — reading what follows an opcode

The arguments of an opcode are read from the left to the right.  What is kept
on the way is the opcode, the tokens not yet read, and the span of the last
token that was: an instruction that ends too early is reported there, at the
opcode itself if nothing followed it.
-/

namespace RegisterMachine

/-- The tokens behind an opcode, read up to some place -/
structure Arguments where
  opcode : Token
  /-- Where the last token read stands -/
  last : Span
  rest : List Token

namespace Arguments

/-- A step in reading arguments -/
abbrev Reader := StateT Arguments (Except Diagnostic)

/-- All the tokens behind an opcode, none of them read -/
def start (opcode : Token) (rest : List Token) : Arguments :=
  ⟨opcode, opcode.span, rest⟩

/-- The next token, where something is expected -/
def token (expected : Expectation) : Reader Token := fun a =>
  match a.rest with
  | [] => .error ((Cause.missing expected a.opcode.text).diagnostic a.last)
  | t :: rest => .ok (t, { a with last := t.span, rest })

/-- The complaint that a token is not what is expected -/
def refuse {α : Type} (expected : Expectation) (t : Token) : Reader α := fun a =>
  .error ((Cause.mismatch expected a.opcode.text t.text).diagnostic t.span)

/-- The next token, which has to be of a class -/
def tokenOf (kind : Token.Kind) (expected : Expectation) : Reader Token := do
  let t ← token expected
  if t.kind = kind then return t else refuse expected t

/-- A name of a register or a label -/
def name (expected : Expectation) : Reader String :=
  Token.text <$> tokenOf .identifier expected

/-- The comma between two operands -/
def separator : Reader Unit := do
  let _ ← tokenOf .comma .separator

/-- The machine word an integer token stands for -/
def literal (t : Token) : Reader Operand := fun a =>
  match Word.read? t.text.toList with
  | some value => .ok (.literal value, a)
  | none => .error ((Cause.literalOutOfRange t.text).diagnostic t.span)

/-- A register or an integer -/
def operand : Reader Operand := do
  let t ← token .operand
  match t.kind with
  | .integer => literal t
  | .identifier => return .register t.text
  | _ => refuse .operand t

/-- What a reader makes of the tokens behind an opcode, if it reads them all -/
def readAll {α : Type} (reader : Reader α) (opcode : Token) (rest : List Token) :
    Except Diagnostic α := do
  let (x, a) ← reader.run (start opcode rest)
  match a.rest with
  | [] => return x
  | t :: _ => throw ((Cause.trailing t.text opcode.text).diagnostic t.span)

end Arguments

end RegisterMachine
