import RegisterMachine.Registers.Fetch
import RegisterMachine.Text.WhiteSpace

/-!
# `RegisterMachine.Template` — the templates of messages

A template is a sequence of pieces:

    piece       written                                      means
    quoted      between single quotes                        itself
    name        any other run without quotes or separators   the value of the register
    separator   a run of blanks, tabs and commas             nothing

The closing quote may be missing at the end of the template.  So every text is
a template, and its pieces put together are the text again (`flatMap_raw_pieces`);
there is nothing for a reader of templates to refuse.

On a line, a template ends at the first semicolon that is not in a quoted text
(`uncommented`).  There the quotes are only counted, which is enough: an odd
number of quotes before a place means that it lies in a quoted text.
-/

namespace RegisterMachine.Template

/-- The mark around a quoted text -/
def quote : Char := '\x27'

/-! ## The comment behind a template -/

/-- The text up to the first semicolon outside quotes, from a place inside or outside them -/
def uncommentedFrom (inside : Bool) : List Char → List Char
  | [] => []
  | c :: cs =>
    if c = ';' && !inside then []
    else c :: uncommentedFrom (if c = quote then !inside else inside) cs

/-- The text without the comment at its end -/
def uncommented (cs : List Char) : List Char :=
  uncommentedFrom false cs

theorem uncommentedFrom_prefix (inside : Bool) (cs : List Char) :
    uncommentedFrom inside cs <+: cs := by
  induction cs generalizing inside with
  | nil => exact List.nil_prefix
  | cons c cs ih =>
    rw [uncommentedFrom]
    split
    · exact List.nil_prefix
    · exact List.cons_prefix_cons.2 ⟨rfl, ih _⟩

/-! ## Pieces -/

/-- The characters between the pieces that mean something -/
def isSeparator (c : Char) : Bool :=
  c == ' ' || c == '\t' || c == ','

/-- The characters of a register's name -/
def isNameChar (c : Char) : Bool :=
  c != quote && !isSeparator c

/-- A piece of a template, as it is written -/
inductive Piece where
  | separator (cs : List Char)
  | name (cs : List Char)
  /-- A quoted text, and whether its closing quote is there -/
  | quoted (content : List Char) (closed : Bool)
  deriving DecidableEq

/-- The text of a piece -/
def Piece.raw : Piece → List Char
  | .separator cs => cs
  | .name cs => cs
  | .quoted content closed => quote :: content ++ (if closed then [quote] else [])

/-- The pieces of a text, each as long as it can be -/
def pieces : List Char → List Piece
  | [] => []
  | c :: cs =>
    if isSeparator c then
      .separator (c :: cs.takeWhile isSeparator) :: pieces (cs.dropWhile isSeparator)
    else if c = quote then
      match _h : cs.dropWhile (· != quote) with
      | [] => [.quoted cs false]
      | _ :: rest => .quoted (cs.takeWhile (· != quote)) true :: pieces rest
    else
      .name (c :: cs.takeWhile isNameChar) :: pieces (cs.dropWhile isNameChar)
termination_by cs => cs.length
decreasing_by
  · have := (List.dropWhile_sublist (l := cs) isSeparator).length_le
    simp only [List.length_cons]
    omega
  · have := (List.dropWhile_sublist (l := cs) (· != quote)).length_le
    simp only [_h, List.length_cons] at this ⊢
    omega
  · have := (List.dropWhile_sublist (l := cs) isNameChar).length_le
    simp only [List.length_cons]
    omega

/-- What dropping stops at does not have the property dropped -/
theorem head_dropWhile {α : Type} {p : α → Bool} {l r : List α} {a : α}
    (h : l.dropWhile p = a :: r) : p a = false := by
  have hhead := List.head?_dropWhile_not p l
  rwa [h] at hhead

/-- The pieces of a text are the text -/
theorem flatMap_raw_pieces (cs : List Char) : (pieces cs).flatMap Piece.raw = cs := by
  fun_induction pieces cs with
  | case1 => rfl
  | case2 c cs _ ih =>
    rw [List.flatMap_cons, ih, Piece.raw, List.cons_append, List.takeWhile_append_dropWhile]
  | case3 cs => simp [Piece.raw]
  | case4 cs d rest h _ ih =>
    have hd : d = quote := by simpa using head_dropWhile h
    have hsplit := List.takeWhile_append_dropWhile (p := (· != quote)) (l := cs)
    rw [h, hd] at hsplit
    rw [List.flatMap_cons, ih, Piece.raw, if_pos rfl, List.cons_append, List.cons_append,
      List.append_assoc]
    exact congrArg (quote :: ·) hsplit
  | case5 c cs _ _ ih =>
    rw [List.flatMap_cons, ih, Piece.raw, List.cons_append, List.takeWhile_append_dropWhile]

/-! ## Parts -/

/-- A piece of a template that means something -/
inductive Part where
  | text (content : String)
  | register (name : String)
  deriving DecidableEq

/-- What a piece means, if it means anything -/
def Piece.part? : Piece → Option Part
  | .separator _ => none
  | .name cs => some (.register (String.ofList cs))
  | .quoted content _ => some (.text (String.ofList content))

/-- The parts of a template, from the left to the right -/
def parts (template : String) : List Part :=
  (pieces template.toList).filterMap Piece.part?

/-! ## Interpolation -/

/-- What a part stands for, given the registers -/
def Part.render {V : Type} [Cell V] (registers : Registers V) : Part → Except Cause String
  | .text content => .ok content
  | .register name => (registers.fetch name).map fun v => Decimal.text (Cell.toInt v)

/-- The message of a template, or the first register it names that does not exist -/
def interpolate {V : Type} [Cell V] (template : String) (registers : Registers V) :
    Except Cause String :=
  ((parts template).mapM (Part.render registers)).map String.join

end RegisterMachine.Template
