import RegisterMachine.Cause
import RegisterMachine.Text.Bytes

/-!
# `RegisterMachine.Token` — the tokens of a line

A line is a sequence of tokens with gaps between them.

    class         text
    identifier    a letter or an underscore, then letters, digits and underscores
    integer       one or more digits, perhaps with a minus sign in front
    comma, colon  the character itself
    gap           blanks, then perhaps a comment: a semicolon and the rest of the line

Letters and digits are those of ASCII.  A token is as long as its class allows.
A character that starts no token is an error of that one character; scanning
may go on behind it, so an error loses nothing of what follows.

A `Cursor` is a place in a line: what is left, and where that stands in the
source.  It is all the state there is, so scanning can be stopped anywhere and
taken up again from what is left (`Cursor.next` has no other argument).

**Proved here.**

    gap ++ skip = text                                  (`gap_append_skip`)
    lexeme ++ rest = text                               (`munch_append`)
    each answer leaves less to scan                     (`Cursor.next_shorter`)
-/

namespace RegisterMachine

namespace Token

/-- The classes of token -/
inductive Kind where
  | integer
  | identifier
  | comma
  | colon
  deriving DecidableEq, Inhabited

end Token

/-- A token: its class, its text and where it stands -/
structure Token where
  kind : Token.Kind
  text : String
  span : Span
  deriving DecidableEq, Inhabited

namespace Token

open Text (byteLength)

/-! ## Character classes -/

/-- The characters between tokens -/
def isBlank (c : Char) : Bool :=
  c == ' ' || c == '\t' || c == '\r'

/-- The characters an identifier starts with -/
def startsIdentifier (c : Char) : Bool :=
  c.isAlpha || c == '_'

/-- The characters an identifier goes on with -/
def continuesIdentifier (c : Char) : Bool :=
  c.isAlphanum || c == '_'

/-- Whether an integer starts with this character, the given text behind it -/
def startsInteger (c : Char) (cs : List Char) : Bool :=
  c.isDigit || (c == '-' && cs.head?.any Char.isDigit)

/-! ## Gaps -/

/-- The blanks and the comment a text starts with -/
def gap (cs : List Char) : List Char :=
  cs.takeWhile isBlank ++
    match cs.dropWhile isBlank with
    | ';' :: comment => ';' :: comment.takeWhile (· != '\n')
    | _ => []

/-- The text behind the blanks and the comment it starts with -/
def skip (cs : List Char) : List Char :=
  match cs.dropWhile isBlank with
  | ';' :: comment => comment.dropWhile (· != '\n')
  | rest => rest

theorem gap_append_skip (cs : List Char) : gap cs ++ skip cs = cs := by
  unfold gap skip
  split
  · rename_i comment h
    rw [List.append_assoc, List.cons_append, List.takeWhile_append_dropWhile, ← h,
      List.takeWhile_append_dropWhile]
  · rw [List.append_nil, List.takeWhile_append_dropWhile]

/-! ## Lexemes -/

/-- What a text starts with, its class if it has one, and what is left behind it -/
structure Lexeme where
  kind? : Option Kind
  text : List Char
  rest : List Char

/-- The longest token a text starts with, or else its first character -/
def munch (c : Char) (cs : List Char) : Lexeme :=
  if startsIdentifier c then
    ⟨some .identifier, c :: cs.takeWhile continuesIdentifier, cs.dropWhile continuesIdentifier⟩
  else if startsInteger c cs then
    ⟨some .integer, c :: cs.takeWhile Char.isDigit, cs.dropWhile Char.isDigit⟩
  else if c = ',' then ⟨some .comma, [c], cs⟩
  else if c = ':' then ⟨some .colon, [c], cs⟩
  else ⟨none, [c], cs⟩

/-- A lexeme is a piece of the text from its start on -/
theorem munch_append (c : Char) (cs : List Char) :
    (munch c cs).text ++ (munch c cs).rest = c :: cs := by
  unfold munch
  repeat' split
  all_goals simp [List.takeWhile_append_dropWhile]

/-- A lexeme starts with the first character -/
theorem munch_text (c : Char) (cs : List Char) : ∃ ds, (munch c cs).text = c :: ds := by
  unfold munch
  repeat' split
  all_goals exact ⟨_, rfl⟩

theorem length_munch_rest (c : Char) (cs : List Char) : (munch c cs).rest.length ≤ cs.length := by
  obtain ⟨ds, hds⟩ := munch_text c cs
  have h := congrArg List.length (munch_append c cs)
  rw [hds] at h
  simp only [List.cons_append, List.length_cons, List.length_append] at h
  omega

/-! ## Scanning -/

/-- A place in a line: what is left of it, and where that starts in the source -/
structure Cursor where
  rest : List Char
  offset : Nat
  deriving DecidableEq, Inhabited

namespace Cursor

/-- The start of a line that stands at a place in the source -/
def start (line : String) (offset : Nat) : Cursor :=
  ⟨line.toList, offset⟩

/-- The place where the rest of the line ends -/
def stop (k : Cursor) : Nat :=
  k.offset + byteLength k.rest

/-- Where the rest of the line stands -/
def span (k : Cursor) : Span :=
  ⟨k.offset, k.stop⟩

/-- The cursor behind the gap it stands before -/
def skip (k : Cursor) : Cursor :=
  ⟨Token.skip k.rest, k.offset + byteLength (gap k.rest)⟩

/-- What the scanner finds next, if the line goes on, and the cursor behind it -/
def next (k : Cursor) : Option (Except Diagnostic Token) × Cursor :=
  match k.skip.rest with
  | [] => (none, k.skip)
  | c :: cs =>
    let lexeme := munch c cs
    let span : Span := ⟨k.skip.offset, k.skip.offset + byteLength lexeme.text⟩
    let answer := match lexeme.kind? with
      | some kind => .ok ⟨kind, String.ofList lexeme.text, span⟩
      | none => .error ((Cause.unknownCharacter c).diagnostic span)
    (some answer, ⟨lexeme.rest, span.stop⟩)

/-- Behind an answer there is less left than before it -/
theorem next_shorter {k k' : Cursor} {a : Except Diagnostic Token} (h : k.next = (some a, k')) :
    k'.rest.length < k.rest.length := by
  have hk := congrArg List.length (gap_append_skip k.rest)
  rw [List.length_append] at hk
  unfold next at h
  split at h
  · cases h
  · rename_i c cs hrest
    have hskip : Token.skip k.rest = c :: cs := hrest
    rw [hskip, List.length_cons] at hk
    cases h
    have := length_munch_rest c cs
    show (munch c cs).rest.length < k.rest.length
    omega

/-- All that the scanner finds, going on behind errors -/
def answers (k : Cursor) : List (Except Diagnostic Token) :=
  match _h : k.next with
  | (none, _) => []
  | (some a, k') => a :: answers k'
termination_by k.rest.length
decreasing_by exact next_shorter _h

/-- The tokens that are left, unless there is an error among them -/
def tokens (k : Cursor) : Except Diagnostic (List Token) :=
  k.answers.mapM id

end Cursor

/-- The tokens of a line that stands at a place in the source, or its first error -/
def lex (line : String) (offset : Nat) : Except Diagnostic (List Token) :=
  (Cursor.start line offset).tokens

end Token

end RegisterMachine
