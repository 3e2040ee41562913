import RegisterMachine.Mnemonic
import RegisterMachine.Template

/-!
# `RegisterMachine.Line` — what one line of a source says

A line is read by its first token:

    first token           rest of the line              instruction
    none                                                comment
    an identifier n       a colon and no more           the label n
    msg                   a template                    a message
    another mnemonic      its arguments                 that instruction

The rest of a `msg` line is not made of tokens, so only its first token is
scanned before the template is cut out: without the comment behind it and
without white space around it.  A template that is a lone colon makes the line
the label `msg`.  On every other line all tokens are scanned first, and a
character that starts none is reported before anything else.
-/

namespace RegisterMachine

/-- A line of a source, and where it starts there -/
structure Line where
  text : String
  offset : Nat
  deriving DecidableEq, Inhabited

namespace Line

/-- Where the line stands, without the white space at its end -/
def span (l : Line) : Span :=
  ⟨l.offset, l.offset + Text.byteLength (Text.trimEnd l.text.toList)⟩

/-- What a line says whose tokens are an identifier and the given ones -/
def ofTokens (first : Token) (rest : List Token) : Except Diagnostic Instruction :=
  if rest.map Token.kind = [.colon] then .ok (.label first.text)
  else
    match Mnemonic.ofName? first.text with
    | some mnemonic => Arguments.readAll mnemonic.read first rest
    | none => .error ((Cause.unknownInstruction first.text).diagnostic first.span)

/-- The template on a line, from what stands behind its opcode -/
def template (rest : List Char) : List Char :=
  Text.trim (Template.uncommented rest)

/-- What a line says, given its first token and the cursor behind it -/
def ofFirst (first : Token) (behind : Token.Cursor) : Except Diagnostic Instruction :=
  if first.kind ≠ .identifier then
    .error ((Cause.notAnOpcode first.text).diagnostic first.span)
  else if first.text = "msg" ∧ template behind.rest ≠ [':'] then
    match template behind.rest with
    | [] => .error (Cause.emptyTemplate.diagnostic (first.span.expand behind.span))
    | cs => .ok (.message (String.ofList cs))
  else do
    let rest ← behind.tokens
    ofTokens first rest

/-- What a line says -/
def parse (l : Line) : Except Diagnostic Instruction :=
  match (Token.Cursor.start l.text l.offset).next with
  | (none, _) => .ok .comment
  | (some (.error d), _) => .error d
  | (some (.ok first), behind) => ofFirst first behind

end Line

end RegisterMachine
