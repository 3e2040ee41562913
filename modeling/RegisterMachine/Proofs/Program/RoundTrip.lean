import RegisterMachine.Proofs.Line.RoundTrip
import RegisterMachine.Proofs.Machine.Agreement
import RegisterMachine.Proofs.Program.Items
import RegisterMachine.Proofs.Source.Lines

/-!
# `RegisterMachine.Proofs.Program.RoundTrip` — programs written and read again

A program is written by writing its instructions, each on a line of its own.
The comments and the layout of the source that it was read from are gone then,
and the instructions stand elsewhere, but the code is the same: what was read
from a line is read from its written form again.  With the code the label table
is the same, and so are the runs.

    instruction    ↔ some line says it ↔ its written form does ↔ `Instruction.Writable`
    program        read from a source → read from its written form, with the same code
-/

namespace RegisterMachine

namespace Program

/-- The written forms of the instructions, one on each line -/
def text (p : Program) : String :=
  String.intercalate "\n" (p.code.toList.map Instruction.text)

/-! ## Written forms -/

variable {source : String}

theorem toList_intercalate_newline (t : String) (ts : List String) :
    (String.intercalate "\n" (t :: ts)).toList = Source.join t.toList (ts.map String.toList) := by
  induction ts generalizing t with
  | nil => rw [String.intercalate_singleton]; rfl
  | cons u ts ih =>
    rw [String.intercalate_cons_cons, String.toList_append, String.toList_append, ih]
    simp [Source.join]

/-- Written forms as lines are read as what was written, wherever they start -/
theorem items_of_writable {code : List Instruction} (h : ∀ i ∈ code, i.Writable) (offset : Nat) :
    ∃ items : List (Instruction × Span),
      (Source.number offset (code.map fun i => i.text.toList)).map
        (fun l => l.parse.map fun i => (i, l.span)) = items.map .ok ∧
      items.map Prod.fst = code := by
  induction code generalizing offset with
  | nil => exact ⟨[], rfl, rfl⟩
  | cons i code ih =>
    obtain ⟨items, hitems, hcode⟩ := ih (fun j hj => h j (List.mem_cons_of_mem i hj))
      (offset + Text.byteLength i.text.toList + 1)
    let l : Line := ⟨String.ofList i.text.toList, offset⟩
    have hl : l.parse = .ok i := by
      show Line.parse ⟨String.ofList i.text.toList, offset⟩ = _
      rw [String.ofList_toList]
      exact Line.parse_text (h i List.mem_cons_self) offset
    refine ⟨(i, l.span) :: items, ?_, ?_⟩
    · rw [List.map_cons, Source.number, List.map_cons, hitems, List.map_cons]
      show (l.parse.map fun i => (i, l.span)) :: _ = _
      rw [hl]
      rfl
    · rw [List.map_cons, hcode]

/-- A program that was read from a source is read from its written form again -/
theorem parse_text {p : Program} (h : Program.parse source = .ok p) :
    ∃ q, Program.parse p.text = .ok q ∧ q.code = p.code := by
  have hwritable : ∀ i ∈ p.code.toList, i.Writable := by
    intro i hi
    obtain ⟨l, _, hparse⟩ := line_of_mem h hi
    exact Line.writable_of_parse hparse
  have hnewline : ∀ cs ∈ p.code.toList.map (fun i => i.text.toList), '\n' ∉ cs := by
    intro cs hcs
    obtain ⟨i, hi, rfl⟩ := List.mem_map.1 hcs
    obtain ⟨l, hl, hparse⟩ := line_of_mem h hi
    exact Line.no_newline_of_parse hparse (Source.not_mem_of_line hl)
  obtain ⟨items, hitems, hcode⟩ := items_of_writable hwritable 0
  refine parse_of_items ?_ hcode
  have hlines : Source.lines p.text =
      Source.number 0 (p.code.toList.map fun i => i.text.toList) := by
    obtain ⟨i, is, his⟩ := List.exists_cons_of_ne_nil (code_ne_nil h)
    rw [his] at hnewline
    rw [Source.lines, text, his, List.map_cons, toList_intercalate_newline, List.map_map,
      show String.toList ∘ Instruction.text = fun i => i.text.toList from rfl,
      Source.cut_join hnewline, List.map_cons]
  rw [Source.items, hlines, hitems]

end Program

/-- Writing and reading undo each other on just the instructions that can be read, and on the
programs that can be read they keep the code, the labels and the result of every run -/
theorem write_read_exact :
    (∀ i : Instruction,
      ((∃ text offset, (⟨text, offset⟩ : Line).parse = .ok i) ↔ i.Writable) ∧
      ((∀ offset, (⟨i.text, offset⟩ : Line).parse = .ok i) ↔ i.Writable)) ∧
    ∀ (source : String) (p : Program), Program.parse source = .ok p →
      ∃ q, Program.parse p.text = .ok q ∧ q.code = p.code ∧ q.labels = p.labels ∧
        ∀ limit : Option Nat, Option.Rel Agree (p.run limit) (q.run limit) := by
  refine ⟨fun i => ⟨⟨?_, ?_⟩, ?_, ?_⟩, ?_⟩
  · rintro ⟨text, offset, h⟩
    exact Line.writable_of_parse h
  · intro h
    exact ⟨i.text, 0, Line.parse_text h 0⟩
  · intro h
    exact Line.writable_of_parse (h 0)
  · exact Line.parse_text
  · intro source p h
    obtain ⟨q, hq, hcode⟩ := Program.parse_text h
    exact ⟨q, hq, hcode, Program.labels_congr hcode, Program.run_congr hcode.symm⟩

end RegisterMachine
