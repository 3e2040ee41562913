import RegisterMachine.Line

/-!
# `RegisterMachine.Source` — a source as a list of lines

A source is cut at its newlines and at nothing else: a carriage return stays
with its line, and what follows the last newline is a line too, even if it is
empty.  So there is one line more than there are newlines, and the lines put
together again with newlines between them are the source (`join_cut`).

Each line is read for itself.  `items` keeps the answer for every line, the
errors among them.
-/

namespace RegisterMachine.Source

/-- The text up to the first newline, and the texts between newlines behind it -/
def cut : List Char → List Char × List (List Char)
  | [] => ([], [])
  | c :: cs =>
    let (l, ls) := cut cs
    if c = '\n' then ([], l :: ls) else (c :: l, ls)

theorem cut_cons (c : Char) (cs : List Char) :
    cut (c :: cs) =
      if c = '\n' then ([], (cut cs).1 :: (cut cs).2) else (c :: (cut cs).1, (cut cs).2) := rfl

/-- Texts with newlines between them -/
def join : List Char → List (List Char) → List Char
  | l, [] => l
  | l, m :: ls => l ++ '\n' :: join m ls

theorem join_cons (c : Char) (l : List Char) (ls : List (List Char)) :
    join (c :: l) ls = c :: join l ls := by
  cases ls <;> rfl

/-- Cutting loses nothing -/
theorem join_cut (cs : List Char) : join (cut cs).1 (cut cs).2 = cs := by
  induction cs with
  | nil => rfl
  | cons c cs ih =>
    rw [cut_cons]
    split
    · rename_i hc
      show [] ++ '\n' :: join (cut cs).1 (cut cs).2 = c :: cs
      rw [ih, hc, List.nil_append]
    · rw [join_cons, ih]

/-- Every newline starts a line -/
theorem length_cut (cs : List Char) : (cut cs).2.length = cs.count '\n' := by
  induction cs with
  | nil => rfl
  | cons c cs ih =>
    rw [cut_cons]
    split
    · rename_i hc
      simp [hc, ih]
    · rename_i hc
      simp [hc, ih]

/-- Texts as lines, the first at a place in the source and each a newline behind the one before -/
def number (offset : Nat) : List (List Char) → List Line
  | [] => []
  | l :: ls => ⟨String.ofList l, offset⟩ :: number (offset + Text.byteLength l + 1) ls

/-- The lines of a source -/
def lines (source : String) : List Line :=
  let (l, ls) := cut source.toList
  number 0 (l :: ls)

/-- What each line says and where it stands, or why it says nothing -/
def items (source : String) : List (Except Diagnostic (Instruction × Span)) :=
  (lines source).map fun l => l.parse.map fun i => (i, l.span)

@[simp] theorem length_number (offset : Nat) (ls : List (List Char)) :
    (number offset ls).length = ls.length := by
  induction ls generalizing offset with
  | nil => rfl
  | cons l ls ih => simp [number, ih]

/-- One line more than there are newlines -/
theorem length_lines (source : String) :
    (lines source).length = source.toList.count '\n' + 1 := by
  simp [lines, length_cut]

end RegisterMachine.Source
