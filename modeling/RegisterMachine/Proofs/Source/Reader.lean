import RegisterMachine.Proofs.Program.Acceptance
import RegisterMachine.Proofs.Text.ByteOrder

/-!
# `RegisterMachine.Proofs.Source.Reader` — reading a source line by line

`Source.items` cuts a source as a whole.  A reader takes one line at a time, and knows only what
is left of the source and how many bytes it has passed:

    left of the source      yields                       and goes on with
    nothing                 nothing
    no newline in it        what all of it says          nothing left
    a newline in it         what the text before says    what is behind, one byte further

It goes on behind a line that says nothing as behind any other.  Run to its end, it yields the
items of the source, and nothing else (`Reader.yields_iff`).
-/

namespace RegisterMachine.Source

/-! ## Readers -/

/-- Where a reader has come to: what is left, unless the last line has been read, and how many
bytes are before it -/
structure Reader where
  rest : Option (List Char)
  offset : Nat

namespace Reader

/-- A reader that has not read anything -/
def start (source : String) : Reader :=
  ⟨some source.toList, 0⟩

/-- The line up to the next newline, with what it says or why it says nothing, and the reader
behind that newline -/
def next? (r : Reader) : Option (Except Diagnostic (Instruction × Span) × Reader) :=
  match r.rest with
  | none => none
  | some cs =>
    let text := cs.takeWhile (· != '\n')
    let line : Line := ⟨String.ofList text, r.offset⟩
    some (line.item, ⟨(cs.dropWhile (· != '\n')).tail?, r.offset + Text.byteLength text + 1⟩)

/-- Run to its end, the reader yields these items -/
inductive Yields : Reader → List (Except Diagnostic (Instruction × Span)) → Prop
  | done {r : Reader} : r.next? = none → Yields r []
  | more {r r' : Reader} {x : Except Diagnostic (Instruction × Span)}
      {xs : List (Except Diagnostic (Instruction × Span))} :
      r.next? = some (x, r') → Yields r' xs → Yields r (x :: xs)

/-- A reader yields one list of items only -/
theorem Yields.unique {r : Reader} {xs ys : List (Except Diagnostic (Instruction × Span))}
    (h : r.Yields xs) (h' : r.Yields ys) : xs = ys := by
  induction h generalizing ys with
  | done hnone =>
    cases h' with
    | done _ => rfl
    | more hsome _ =>
      rw [hnone] at hsome
      cases hsome
  | more hsome _ ih =>
    cases h' with
    | done hnone =>
      rw [hsome] at hnone
      cases hnone
    | more hsome' h' =>
      rw [hsome] at hsome'
      cases hsome'
      rw [ih h']

/-- A reader takes the text up to the first newline -/
theorem next?_of_line {l : List Char} (hl : '\n' ∉ l) (behind : List Char)
    (hbehind : behind.head?.all (· = '\n')) (offset : Nat) :
    next? ⟨some (l ++ behind), offset⟩ =
      some (Line.item ⟨String.ofList l, offset⟩,
        ⟨behind.tail?, offset + Text.byteLength l + 1⟩) := by
  have hpass : ∀ c ∈ l, (c != '\n') = true := by
    intro c hc
    rw [bne_iff_ne]
    rintro rfl
    exact hl hc
  have hstop : ∀ c ∈ behind.head?, (c != '\n') = false := by
    intro c hc
    rw [Option.mem_def.1 hc] at hbehind
    simpa using hbehind
  obtain ⟨htake, hdrop⟩ := Token.takeWhile_append_of_stop hpass hstop
  simp only [next?, htake, hdrop]

/-- Lines with newlines between them are read one after the other -/
theorem yields_join {l : List Char} {ls : List (List Char)} (h : ∀ m ∈ l :: ls, '\n' ∉ m)
    (offset : Nat) :
    Yields ⟨some (join l ls), offset⟩ ((number offset (l :: ls)).map Line.item) := by
  induction ls generalizing l offset with
  | nil =>
    have hnext := next?_of_line (h l List.mem_cons_self) [] rfl offset
    rw [List.append_nil] at hnext
    exact .more hnext (.done rfl)
  | cons m ls ih =>
    have hnext := next?_of_line (h l List.mem_cons_self) ('\n' :: join m ls) rfl offset
    exact .more hnext (ih (fun n hn => h n (List.mem_cons_of_mem l hn)) _)

/-- Run to its end, a reader yields the items of the source and nothing else -/
theorem yields_iff {source : String} {xs : List (Except Diagnostic (Instruction × Span))} :
    (start source).Yields xs ↔ xs = items source := by
  have hitems : (start source).Yields (items source) := by
    have h := yields_join (not_mem_cut source.toList) 0
    rwa [join_cut] at h
  constructor
  · intro h
    exact h.unique hitems
  · rintro rfl
    exact hitems

end Reader

/-! ## Lines -/

/-- Cutting is splitting at the newlines -/
theorem splitOn_newline (cs : List Char) : cs.splitOn '\n' = (cut cs).1 :: (cut cs).2 := by
  have hsplit := List.splitOn_intercalate '\n' (not_mem_cut cs) (List.cons_ne_nil _ _)
  have hjoin : ∀ (l : List Char) (ls : List (List Char)),
      ['\n'].intercalate (l :: ls) = join l ls := by
    intro l ls
    induction ls generalizing l with
    | nil => simp [join]
    | cons m ls ih => simp [join, ← ih]
  rwa [hjoin, join_cut] at hsplit

theorem map_text_number (offset : Nat) (ls : List (List Char)) :
    (number offset ls).map (fun l => l.text.toList) = ls := by
  induction ls generalizing offset with
  | nil => rfl
  | cons l ls ih => rw [number, List.map_cons, ih, String.toList_ofList]

/-- The lines of a source are its pieces between newlines -/
theorem map_text_lines (source : String) :
    (lines source).map (fun l => l.text.toList) = source.toList.splitOn '\n' := by
  rw [splitOn_newline]
  exact map_text_number 0 _

theorem getElem?_items {source : String} {k : Nat} {l : Line} (h : (lines source)[k]? = some l) :
    (items source)[k]? = some l.item := by
  rw [items, List.getElem?_map, h]
  rfl

/-! ## Bytes -/

/-- The bytes of a source in a span -/
def bytesIn (source : String) (s : Span) : List UInt8 :=
  ((Text.bytes source).drop s.start).take (s.stop - s.start)

theorem length_flatMap_utf8 (cs : List Char) :
    (cs.flatMap String.utf8EncodeChar).length = Text.byteLength cs := by
  induction cs with
  | nil => rfl
  | cons c cs ih =>
    rw [List.flatMap_cons, List.length_append, ih, String.length_utf8EncodeChar,
      Text.byteLength_cons]

/-- A span around a piece of the source has the bytes of the piece -/
theorem bytesIn_of_split {source : String} {before piece behind : List Char}
    (h : source.toList = before ++ (piece ++ behind)) :
    bytesIn source ⟨Text.byteLength before, Text.byteLength before + Text.byteLength piece⟩ =
      Text.bytes (String.ofList piece) := by
  rw [bytesIn, Text.bytes_eq_flatMap, Text.bytes_eq_flatMap, h, List.flatMap_append,
    List.flatMap_append, String.toList_ofList, List.drop_left' (length_flatMap_utf8 before),
    Nat.add_sub_cancel_left, List.take_left' (length_flatMap_utf8 piece)]

/-- A line stands where its text is, without the white space at its end -/
theorem bytesIn_span {source : String} {k : Nat} {l : Line} (h : (lines source)[k]? = some l) :
    bytesIn source l.span = Text.bytes (String.ofList (Text.trimEnd l.text.toList)) := by
  obtain ⟨before, behind, hsource, hoffset, _⟩ := piece_of_line h
  rw [← Text.trimEnd_append l.text.toList, List.append_assoc] at hsource
  rw [Line.span, hoffset]
  exact bytesIn_of_split hsource

end RegisterMachine.Source
