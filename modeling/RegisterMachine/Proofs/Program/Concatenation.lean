import RegisterMachine.Proofs.Line.Layout
import RegisterMachine.Proofs.Program.Acceptance
import RegisterMachine.Proofs.Text.Bytes

/-!
# `RegisterMachine.Proofs.Program.Concatenation` — two sources, one behind the other

Two sources with a newline between them are a source, and its lines are the lines of
the two.  Those of the second now stand behind all of the first and the newline, and
nothing else has happened to them:

    line of the second         in the source of both
    what it says               the same                       (`Line.parse_shift`)
    where it stands            further behind                 (`Line.span_shift`)
    why it is refused          the same, further behind       (`Line.parse_shift`)

So each of the two is read as it is read alone (`lines_concat`).  Which of them are refused, and
where, is a matter of lines; only the labels are compared across both (`defined_concat`).
-/

namespace RegisterMachine

/-! ## Places further behind -/

/-- The complaint about the same text where it stands so many bytes further behind -/
def Diagnostic.shift (d : Diagnostic) (n : Nat) : Diagnostic :=
  { d with span := d.span.map (Span.shift · n) }

/-- What has moved and has not been made longer is as it was, further behind -/
theorem Span.Moved.eq_shift {n : Nat} {s s' : Span} (h : Moved 0 n 0 s s') : s' = s.shift n := by
  obtain ⟨start, stop⟩ := s
  obtain ⟨start', stop'⟩ := s'
  obtain ⟨hstart, hle, hstop⟩ := h
  dsimp only at hstart hle hstop
  have hstart : start' = start + n := hstart
  have hstop : stop' = stop + n := Nat.le_antisymm hstop hle
  rw [hstart, hstop]
  rfl

theorem Diagnostic.Alike.eq_shift {n : Nat} {d d' : Diagnostic}
    (h : d.Alike (Span.Moved 0 n 0) d') : d' = d.shift n := by
  obtain ⟨kind, message, span⟩ := d
  obtain ⟨kind', message', span'⟩ := d'
  obtain ⟨hkind, hmessage, hspan⟩ := h
  dsimp only at hkind hmessage hspan
  subst hkind hmessage
  cases hspan with
  | none => rfl
  | some hs => rw [hs.eq_shift]; rfl

namespace Line

/-- The same line so many bytes further behind -/
def shift (l : Line) (n : Nat) : Line :=
  { l with offset := l.offset + n }

theorem span_shift (l : Line) (n : Nat) : (l.shift n).span = l.span.shift n := by
  rw [span, span, Span.shift, Span.mk.injEq]
  exact ⟨rfl, Nat.add_right_comm _ _ _⟩

/-- A line says the same wherever it stands, or is refused for the same reason at the same place
in it -/
theorem parse_shift {l : Line} (h : '\n' ∉ l.text.toList) (n : Nat) :
    (l.shift n).parse = l.parse.mapError (Diagnostic.shift · n) := by
  have hframed : Token.Cursor.Framed 0 n [] [] l.start (l.shift n).start :=
    ⟨(List.append_nil _).symm, .nil, rfl, h, rfl⟩
  have halike := alike_parse hframed (.blanks .nil)
  generalize l.parse = r at halike ⊢
  generalize (l.shift n).parse = r' at halike ⊢
  cases halike with
  | ok hi => exact congrArg Except.ok hi.symm
  | error hd => exact congrArg Except.error hd.eq_shift

theorem parse_shift_eq_ok_iff {l : Line} (h : '\n' ∉ l.text.toList) {n : Nat} {i : Instruction} :
    (l.shift n).parse = .ok i ↔ l.parse = .ok i := by
  rw [parse_shift h]
  cases l.parse with
  | ok j => exact Iff.rfl
  | error d => exact ⟨nofun, nofun⟩

/-- The same where the line stands so many bytes further behind -/
def shiftItem (n : Nat) :
    Except Diagnostic (Instruction × Span) → Except Diagnostic (Instruction × Span)
  | .ok (i, s) => .ok (i, s.shift n)
  | .error d => .error (d.shift n)

theorem item_shift {l : Line} (h : '\n' ∉ l.text.toList) (n : Nat) :
    (l.shift n).item = shiftItem n l.item := by
  rw [item, item, parse_shift h, span_shift]
  cases l.parse <;> rfl

theorem defines?_shift {l : Line} (h : '\n' ∉ l.text.toList) (n : Nat) :
    (l.shift n).defines? = l.defines? := by
  rw [defines?, defines?, parse_shift h]
  cases l.parse <;> rfl

end Line

/-! ## Lines of two sources -/

namespace Source

theorem number_shift (offset n : Nat) (ls : List (List Char)) :
    number (offset + n) ls = (number offset ls).map (Line.shift · n) := by
  induction ls generalizing offset with
  | nil => rfl
  | cons l ls ih =>
    have hnext : offset + n + Text.byteLength l + 1 = offset + Text.byteLength l + 1 + n := by omega
    rw [number, hnext, ih]
    rfl

theorem lines_concat (s t : String) :
    lines (s ++ "\n" ++ t) = lines s ++ (lines t).map (Line.shift · (s.utf8ByteSize + 1)) := by
  have hstart : Text.byteLength s.toList + 1 = 0 + (s.utf8ByteSize + 1) := by
    rw [Text.byteLength_toList, Nat.zero_add]
  rw [lines_append, hstart, number_shift]
  rfl

variable {s t : String}

theorem readable_concat_iff : Readable (s ++ "\n" ++ t) ↔ Readable s ∧ Readable t := by
  unfold Readable
  rw [lines_concat, List.forall_mem_append, List.forall_mem_map]
  refine and_congr_right' (forall₂_congr fun l hl => exists_congr fun i => ?_)
  exact Line.parse_shift_eq_ok_iff (not_mem_of_line hl)

theorem items_concat :
    items (s ++ "\n" ++ t) = items s ++ (items t).map (Line.shiftItem (s.utf8ByteSize + 1)) := by
  rw [items, lines_concat, List.map_append, List.map_map]
  refine congrArg (items s ++ ·) ?_
  rw [items, List.map_map]
  refine List.map_congr_left fun l hl => ?_
  exact Line.item_shift (not_mem_of_line hl) _

theorem defined_concat : defined (s ++ "\n" ++ t) = defined s ++ defined t := by
  rw [defined, lines_concat, List.filterMap_append, List.filterMap_map]
  refine congrArg (defined s ++ ·) (List.filterMap_congr ?_)
  intro l hl
  exact Line.defines?_shift (not_mem_of_line hl) _

theorem line_concat_left {k : Nat} {l : Line} (h : (lines s)[k]? = some l) :
    (lines (s ++ "\n" ++ t))[k]? = some l := by
  rw [lines_concat, List.getElem?_append_left (List.getElem?_eq_some_iff.1 h).1, h]

theorem line_concat_right {k : Nat} {l : Line} (h : (lines t)[k]? = some l) :
    (lines (s ++ "\n" ++ t))[(lines s).length + k]? = some (l.shift (s.utf8ByteSize + 1)) := by
  rw [lines_concat, List.getElem?_append_right (Nat.le_add_right _ _), Nat.add_sub_cancel_left,
    List.getElem?_map, h, Option.map_some]

theorem reads_concat_left {k : Nat} {i : Instruction} (h : Reads s k i) :
    Reads (s ++ "\n" ++ t) k i := by
  obtain ⟨l, hl, hparse⟩ := h
  exact ⟨l, line_concat_left hl, hparse⟩

theorem reads_concat_right {k : Nat} {i : Instruction} (h : Reads t k i) :
    Reads (s ++ "\n" ++ t) ((lines s).length + k) i := by
  obtain ⟨l, hl, hparse⟩ := h
  have hline := not_mem_of_line (List.mem_of_getElem? hl)
  exact ⟨_, line_concat_right hl, (Line.parse_shift_eq_ok_iff hline).2 hparse⟩

/-- The first line that says nothing is the first if it is in the first source -/
theorem refuses_concat_left {k : Nat} {d : Diagnostic} (h : Refuses s k d) :
    Refuses (s ++ "\n" ++ t) k d := by
  obtain ⟨⟨l, hl, hparse⟩, hfirst⟩ := h
  refine ⟨⟨l, line_concat_left hl, hparse⟩, ?_⟩
  intro j hj
  obtain ⟨i, hi⟩ := hfirst j hj
  exact ⟨i, reads_concat_left hi⟩

/-- Behind a source whose lines all say something, it is that of the second source -/
theorem refuses_concat_right {k : Nat} {d : Diagnostic} (hs : Readable s) (h : Refuses t k d) :
    Refuses (s ++ "\n" ++ t) ((lines s).length + k) (d.shift (s.utf8ByteSize + 1)) := by
  obtain ⟨⟨l, hl, hparse⟩, hfirst⟩ := h
  have hline := not_mem_of_line (List.mem_of_getElem? hl)
  refine ⟨⟨_, line_concat_right hl, ?_⟩, ?_⟩
  · rw [Line.parse_shift hline, hparse]
    rfl
  · intro j hj
    rcases Nat.lt_or_ge j (lines s).length with hlt | hle
    · obtain ⟨i, hi⟩ := hs _ (List.getElem_mem hlt)
      exact ⟨i, reads_concat_left ⟨_, List.getElem?_eq_getElem hlt, hi⟩⟩
    · obtain ⟨m, rfl⟩ := Nat.exists_eq_add_of_le hle
      obtain ⟨i, hi⟩ := hfirst m (Nat.lt_of_add_lt_add_left hj)
      exact ⟨i, reads_concat_right hi⟩

end Source

/-! ## Programs of two sources -/

namespace Program

open Source

variable {s t : String} {p q r : Program}

/-- The program of two sources is made of their programs, the second standing further behind -/
theorem code_concat (hp : parse s = .ok p) (hq : parse t = .ok q)
    (hr : parse (s ++ "\n" ++ t) = .ok r) :
    r.code = p.code ++ q.code ∧
      r.spans = p.spans ++ q.spans.map (Span.shift · (s.utf8ByteSize + 1)) := by
  obtain ⟨is, his, hcode, hspans⟩ := items_of_parse hp
  obtain ⟨js, hjs, hcode', hspans'⟩ := items_of_parse hq
  obtain ⟨ks, hks, hcode'', hspans''⟩ := items_of_parse hr
  have hboth : is ++ js.map (fun (i, s') => (i, s'.shift (s.utf8ByteSize + 1))) = ks := by
    rw [items_concat, his, hjs, List.map_map] at hks
    refine (List.map_inj_right fun _ _ h => Except.ok.inj h).1 (Eq.trans ?_ hks)
    rw [List.map_append, List.map_map]
    rfl
  rw [hcode, hcode', hcode'', hspans, hspans', hspans'', ← hboth]
  constructor
  · simp [Function.comp_def]
  · simp [Function.comp_def]

theorem label?_concat (hcode : r.code = p.code ++ q.code) (name : String) :
    r.label? name = (p.label? name).or ((q.label? name).map (p.size + ·)) := by
  cases hp : p.label? name with
  | some index =>
    have hget := label?_eq_some_iff.1 hp
    rw [Option.some_or, label?_eq_some_iff, get?, hcode,
      Array.getElem?_append_left (lt_size_of_get? hget)]
    exact hget
  | none =>
    rw [Option.none_or]
    cases hq : q.label? name with
    | some index =>
      rw [Option.map_some, label?_eq_some_iff, get?, hcode, size,
        Array.getElem?_append_right (Nat.le_add_right _ _), Nat.add_sub_cancel_left]
      exact label?_eq_some_iff.1 hq
    | none =>
      rw [Option.map_none, label?_eq_none_iff, hcode, Array.mem_append, not_or]
      exact ⟨label?_eq_none_iff.1 hp, label?_eq_none_iff.1 hq⟩

/-- Reading goes on from one source to the other.  Two sources with a newline between them are a
program exactly if all lines of both say something and all their labels together are different.
Then the instructions are those of the one and those of the other, each where it stood, the second
source behind the first and the newline; and a label is where it is in the first program, or where
it is in the second behind all lines of the first.  Otherwise the first line of the first source
that says nothing is reported as in that source alone; and if there is none, the first of the
second, as in that source alone but for its place -/
theorem parse_concat (s t : String) :
    ((∃ r, parse (s ++ "\n" ++ t) = .ok r) ↔
      Readable s ∧ Readable t ∧ (defined s ++ defined t).Nodup) ∧
    (∀ r, parse (s ++ "\n" ++ t) = .ok r → ∃ p q, parse s = .ok p ∧ parse t = .ok q ∧
      r.code = p.code ++ q.code ∧
      r.spans = p.spans ++ q.spans.map (Span.shift · (s.utf8ByteSize + 1)) ∧
      ∀ name, r.label? name =
        (p.label? name).or ((q.label? name).map ((lines s).length + ·))) ∧
    (¬ Readable s →
      ∃ k d, Refuses s k d ∧ parse s = .error d ∧ parse (s ++ "\n" ++ t) = .error d) ∧
    (Readable s → ¬ Readable t →
      ∃ k d, Refuses t k d ∧ parse t = .error d ∧
        parse (s ++ "\n" ++ t) = .error (d.shift (s.utf8ByteSize + 1))) := by
  have hok : (∃ r, parse (s ++ "\n" ++ t) = .ok r) ↔
      Readable s ∧ Readable t ∧ (defined s ++ defined t).Nodup := by
    rw [parse_isOk_iff, readable_concat_iff, defined_concat, and_assoc]
  refine ⟨hok, ?_, ?_, ?_⟩
  · intro r hr
    obtain ⟨hs, ht, hnodup⟩ := hok.1 ⟨r, hr⟩
    obtain ⟨p, hp⟩ := parse_isOk_iff.2 ⟨hs, hnodup.of_append_left⟩
    obtain ⟨q, hq⟩ := parse_isOk_iff.2 ⟨ht, hnodup.of_append_right⟩
    obtain ⟨hcode, hspans⟩ := code_concat hp hq hr
    have hsize : p.size = (lines s).length := by
      obtain ⟨is, his, hcode, _⟩ := items_of_parse hp
      rw [size, hcode, List.size_toArray, List.length_map, length_items his]
    exact ⟨p, q, hp, hq, hcode, hspans, hsize ▸ label?_concat hcode⟩
  · intro hs
    obtain ⟨k, d, hrefuses, hparse⟩ := refuses_of_not_readable hs
    exact ⟨k, d, hrefuses, hparse, parse_of_refuses (refuses_concat_left hrefuses)⟩
  · intro hs ht
    obtain ⟨k, d, hrefuses, hparse⟩ := refuses_of_not_readable ht
    exact ⟨k, d, hrefuses, hparse, parse_of_refuses (refuses_concat_right hs hrefuses)⟩

end Program

end RegisterMachine
