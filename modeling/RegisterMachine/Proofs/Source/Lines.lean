import RegisterMachine.Proofs.Line.Grammar
import RegisterMachine.Proofs.Text.Bytes
import RegisterMachine.Source

/-!
# `RegisterMachine.Proofs.Source.Lines` — the lines of a source, and where they stand

A source and its lines are two forms of one thing.  Going from lines to a source
is `join`; the lines come back from it if there is no newline in them
(`cut_join`), as there is none in lines that were cut (`not_mem_cut`).

A line knows how many bytes stand before it, so the places it reaches are places
of the source (`reaches_of_line`).  What a reader of lines complains about is
therefore somewhere in the source, and never inside a character; and since a line is
cut out between newlines, it is within the line that was read (`within_of_covers`).
-/

namespace RegisterMachine.Source

open Token (Cursor)

/-! ## Cutting and joining -/

theorem not_mem_cut (cs : List Char) : ∀ m ∈ (cut cs).1 :: (cut cs).2, '\n' ∉ m := by
  induction cs with
  | nil =>
    intro m hm
    rw [List.mem_singleton.1 hm]
    exact List.not_mem_nil
  | cons c cs ih =>
    intro m hm
    rw [cut_cons] at hm
    split at hm
    · rcases List.mem_cons.1 hm with rfl | hm
      · exact List.not_mem_nil
      · exact ih m hm
    · rename_i hc
      rcases List.mem_cons.1 hm with rfl | hm
      · intro hmem
        rcases List.mem_cons.1 hmem with h | hmem
        · exact hc h.symm
        · exact ih _ List.mem_cons_self hmem
      · exact ih m (List.mem_cons_of_mem _ hm)

theorem cut_of_not_mem {l : List Char} (h : '\n' ∉ l) : cut l = (l, []) := by
  induction l with
  | nil => rfl
  | cons c l ih =>
    obtain ⟨hc, hl⟩ := not_or.1 (mt List.mem_cons.2 h)
    rw [cut_cons, if_neg (Ne.symm hc), ih hl]

theorem cut_append {l cs : List Char} (h : '\n' ∉ l) :
    cut (l ++ '\n' :: cs) = (l, (cut cs).1 :: (cut cs).2) := by
  induction l with
  | nil => rfl
  | cons c l ih =>
    obtain ⟨hc, hl⟩ := not_or.1 (mt List.mem_cons.2 h)
    rw [List.cons_append, cut_cons, if_neg (Ne.symm hc), ih hl]

/-- Lines come back from the text they are joined to -/
theorem cut_join {l : List Char} {ls : List (List Char)} (h : ∀ m ∈ l :: ls, '\n' ∉ m) :
    cut (join l ls) = (l, ls) := by
  induction ls generalizing l with
  | nil => exact cut_of_not_mem (h l List.mem_cons_self)
  | cons m ls ih =>
    rw [join, cut_append (h l List.mem_cons_self), ih fun n hn => h n (List.mem_cons_of_mem l hn)]

/-- A newline between two texts ends the lines of the one and starts those of the other -/
theorem cut_append_newline (cs ds : List Char) :
    cut (cs ++ '\n' :: ds) = ((cut cs).1, (cut cs).2 ++ (cut ds).1 :: (cut ds).2) := by
  induction cs with
  | nil => rfl
  | cons c cs ih =>
    rw [List.cons_append, cut_cons, cut_cons, ih]
    split <;> rfl

theorem number_append (offset : Nat) (l : List Char) (ls ms : List (List Char)) :
    number offset (l :: ls ++ ms) =
      number offset (l :: ls) ++ number (offset + Text.byteLength (join l ls) + 1) ms := by
  induction ls generalizing offset l with
  | nil => rfl
  | cons m ls ih =>
    have hnewline : ('\n' : Char).utf8Size = 1 := rfl
    have hoffset : offset + Text.byteLength l + 1 + Text.byteLength (join m ls) + 1 =
        offset + Text.byteLength (join l (m :: ls)) + 1 := by
      rw [join, Text.byteLength_append, Text.byteLength_cons, hnewline]
      omega
    rw [List.cons_append, number, ih, hoffset]
    rfl

/-- The lines of two sources with a newline between them -/
theorem lines_append (s t : String) :
    lines (s ++ "\n" ++ t) = lines s ++
      number (Text.byteLength s.toList + 1) ((cut t.toList).1 :: (cut t.toList).2) := by
  have hcut := cut_append_newline s.toList t.toList
  have hsource : (s ++ "\n" ++ t).toList = s.toList ++ '\n' :: t.toList := by
    simp [String.toList_append]
  have hnumber := number_append 0 (cut s.toList).1 (cut s.toList).2
    ((cut t.toList).1 :: (cut t.toList).2)
  rw [join_cut, Nat.zero_add, List.cons_append] at hnumber
  rw [lines, hsource, hcut]
  exact hnumber

/-! ## Places -/

/-- The cursor at the start of a source -/
def start (source : String) : Cursor :=
  .start source 0

theorem mem_of_mem_number {line : Line} {offset : Nat} {ls : List (List Char)}
    (h : line ∈ number offset ls) : line.text.toList ∈ ls := by
  induction ls generalizing offset with
  | nil => cases h
  | cons l ls ih =>
    rcases List.mem_cons.1 h with rfl | h
    · rw [String.toList_ofList]
      exact List.mem_cons_self
    · exact List.mem_cons_of_mem l (ih h)

/-- A line is a piece of the text, behind as many bytes as it says and as many newlines as its
index -/
theorem piece_of_number {line : Line} {offset k : Nat} {l : List Char} {ls : List (List Char)}
    (hls : ∀ m ∈ l :: ls, '\n' ∉ m) (h : (number offset (l :: ls))[k]? = some line) :
    ∃ before behind, join l ls = before ++ (line.text.toList ++ behind) ∧
      line.offset = offset + Text.byteLength before ∧ before.count '\n' = k := by
  induction ls generalizing offset l k with
  | nil =>
    cases k with
    | zero =>
      cases h
      exact ⟨[], [], by simp [join], rfl, rfl⟩
    | succ k => cases h
  | cons m ls ih =>
    cases k with
    | zero =>
      cases h
      exact ⟨[], '\n' :: join m ls, by simp [join], rfl, rfl⟩
    | succ k =>
      obtain ⟨before, behind, hjoin, hoffset, hcount⟩ :=
        ih (fun n hn => hls n (List.mem_cons_of_mem l hn)) h
      refine ⟨l ++ '\n' :: before, behind, ?_, ?_, ?_⟩
      · rw [join, hjoin]
        simp
      · have hnewline : ('\n' : Char).utf8Size = 1 := rfl
        rw [hoffset, Text.byteLength_append, Text.byteLength_cons, hnewline]
        omega
      · have hnone : l.count '\n' = 0 := List.count_eq_zero.2 (hls l List.mem_cons_self)
        rw [List.count_append, List.count_cons_self, hcount, hnone, Nat.zero_add]

variable {source : String} {line : Line}

theorem not_mem_of_line (h : line ∈ lines source) : '\n' ∉ line.text.toList :=
  not_mem_cut source.toList _ (mem_of_mem_number h)

/-- The line of an index is a piece of the source, behind as many newlines -/
theorem piece_of_line {k : Nat} (h : (lines source)[k]? = some line) :
    ∃ before behind, source.toList = before ++ (line.text.toList ++ behind) ∧
      line.offset = Text.byteLength before ∧ before.count '\n' = k := by
  obtain ⟨before, behind, hjoin, hoffset, hcount⟩ := piece_of_number (not_mem_cut source.toList) h
  rw [join_cut] at hjoin
  exact ⟨before, behind, hjoin, hoffset.trans (Nat.zero_add _), hcount⟩

/-- A place of a line is a place of the source -/
theorem reaches_of_line (h : line ∈ lines source) {n : Nat} (hn : line.start.Reaches n) :
    (start source).Reaches n := by
  obtain ⟨k, hk⟩ := List.mem_iff_getElem?.1 h
  obtain ⟨before, behind, hsource, hoffset, _⟩ := piece_of_line hk
  obtain ⟨before', behind', hline, rfl⟩ := hn
  refine ⟨before ++ before', behind' ++ behind, ?_, ?_⟩
  · show source.toList = _
    rw [hsource, show line.text.toList = before' ++ behind' from hline]
    simp
  · show line.offset + _ = 0 + _
    rw [hoffset, Text.byteLength_append, Nat.zero_add]

theorem covers_of_line (h : line ∈ lines source) {s : Span} (hs : line.start.Covers s) :
    (start source).Covers s :=
  ⟨reaches_of_line h hs.start, reaches_of_line h hs.stop, hs.le⟩

/-! ## Spans in a line -/

/-- The span lies in the line of an index.  As many newlines are before the line, and none is in
it; the ends of the span are between characters, and not outside of the line -/
structure Within (source : String) (k : Nat) (line : Line) (s : Span) : Prop where
  line_eq : (lines source)[k]? = some line
  piece : ∃ before behind, source.toList = before ++ (line.text.toList ++ behind) ∧
    line.offset = Text.byteLength before ∧ before.count '\n' = k
  newline_not_mem : '\n' ∉ line.text.toList
  covers : (start source).Covers s
  stop_le_size : s.stop ≤ source.utf8ByteSize
  offset_le : line.offset ≤ s.start
  stop_le : s.stop ≤ line.offset + Text.byteLength line.text.toList

theorem within_of_covers {k : Nat} {s : Span} (h : (lines source)[k]? = some line)
    (hs : line.start.Covers s) : Within source k line s := by
  have hmem : line ∈ lines source := List.mem_of_getElem? h
  have hcovers := covers_of_line hmem hs
  refine ⟨h, piece_of_line h, not_mem_of_line hmem, hcovers, ?_, ?_, ?_⟩
  · obtain ⟨before, behind, hsource, hstop⟩ := hcovers.stop
    have hsource : source.toList = before ++ behind := hsource
    have hstop : s.stop = 0 + Text.byteLength before := hstop
    rw [← Text.byteLength_toList, hsource, Text.byteLength_append, hstop, Nat.zero_add]
    exact Nat.le_add_right _ _
  · obtain ⟨before, _, _, hstart⟩ := hs.start
    rw [hstart]
    exact Nat.le_add_right _ _
  · obtain ⟨before, behind, htext, hstop⟩ := hs.stop
    rw [hstop, show line.text.toList = before ++ behind from htext, Text.byteLength_append]
    exact Nat.add_le_add_left (Nat.le_add_right _ _) _

theorem covers_span_self (l : Line) : l.start.Covers l.span := by
  refine ⟨⟨[], _, rfl, rfl⟩, ?_, Nat.le_add_right _ _⟩
  exact ⟨_, _, (Text.trimEnd_append l.text.toList).symm, rfl⟩

end RegisterMachine.Source
