import RegisterMachine.Program
import RegisterMachine.Proofs.Except

/-!
# `RegisterMachine.Proofs.Program.Items` — programs and the lines they are read from

A program that was read has an item for every line of the source: the
instruction that the line says, and where the line stands (`items_of_parse`).
The only other thing that reading asks for is that no label stands twice, and
that does not depend on where the instructions stand (`parse_of_items`).
-/

namespace RegisterMachine.Program

section

variable {code : Array Instruction} {spans : Array Span}
  {fit : spans.size = 0 ∨ spans.size = code.size}

theorem of_assemble {p : Program} (h : assemble code spans fit = .ok p) :
    p.code = code ∧ p.spans = spans := by
  unfold assemble at h
  split at h
  · cases h
  · cases h
    exact ⟨rfl, rfl⟩

theorem assemble_of_nodup (fit : spans.size = 0 ∨ spans.size = code.size)
    (h : ((labelTable code.toList).map Prod.fst).Nodup) :
    ∃ p, assemble code spans fit = .ok p := by
  unfold assemble
  split
  · rename_i hrepeated
    rw [repeated?_eq_none_iff.2 ⟨fun _ _ => List.not_mem_nil, h⟩] at hrepeated
    cases hrepeated
  · exact ⟨_, rfl⟩

/-- What cannot be assembled has a label that is repeated, and is refused where that stands -/
theorem repeated?_of_assemble {d : Diagnostic} (h : assemble code spans fit = .error d) :
    ∃ name index, repeated? [] (labelTable code.toList) = some (name, index) ∧
      d = (Cause.labelRedefined name).diagnostic spans[index]? := by
  unfold assemble at h
  split at h
  · rename_i name index hrepeated
    cases h
    exact ⟨name, index, hrepeated, rfl⟩
  · cases h

end

variable {source : String} {items : List (Instruction × Span)}

/-- The item of an index is what the line of the index says, and where it stands -/
theorem line_of_item (h : Source.items source = items.map .ok) {k : Nat} {i : Instruction}
    {s : Span} (hi : items[k]? = some (i, s)) :
    ∃ l, (Source.lines source)[k]? = some l ∧ l.parse = .ok i ∧ l.span = s := by
  have hok : (Source.items source)[k]? = some (.ok (i, s)) := by
    rw [h, List.getElem?_map, hi]
    rfl
  rw [Source.items, List.getElem?_map] at hok
  obtain ⟨l, hl, heq⟩ := Option.map_eq_some_iff.1 hok
  refine ⟨l, hl, ?_⟩
  cases hparse : l.parse with
  | error d => rw [hparse] at heq; cases heq
  | ok j => rw [hparse] at heq; cases heq; exact ⟨rfl, rfl⟩

/-- There is an item for every line -/
theorem length_items (h : Source.items source = items.map .ok) :
    items.length = (Source.lines source).length := by
  have hlength := congrArg List.length h
  rw [Source.items, List.length_map, List.length_map] at hlength
  exact hlength.symm

/-- The line of an index says the instruction of its item, and stands where that does -/
theorem item_of_line (h : Source.items source = items.map .ok) {k : Nat} {l : Line}
    (hl : (Source.lines source)[k]? = some l) :
    ∃ i, items[k]? = some (i, l.span) ∧ l.parse = .ok i := by
  have hk : k < items.length := by
    rw [length_items h]
    exact (List.getElem?_eq_some_iff.1 hl).1
  obtain ⟨l', hl', hparse, hspan⟩ := line_of_item h (List.getElem?_eq_getElem hk)
  rw [hl] at hl'
  cases hl'
  refine ⟨items[k].1, ?_, hparse⟩
  rw [hspan]
  exact List.getElem?_eq_getElem hk

theorem items_of_parse {p : Program} (h : Program.parse source = .ok p) :
    ∃ items : List (Instruction × Span), Source.items source = items.map .ok ∧
      p.code = (items.map Prod.fst).toArray ∧ p.spans = (items.map Prod.snd).toArray := by
  obtain ⟨items, hitems, h⟩ := Except.bind_eq_ok_iff.1 h
  exact ⟨items, Except.mapM_id_eq_ok_iff.1 hitems, of_assemble h⟩

/-- A source whose lines say instructions is read as these if no label is among them twice -/
theorem parse_of_nodup (h : Source.items source = items.map .ok)
    (hnodup : ((labelTable (items.map Prod.fst)).map Prod.fst).Nodup) :
    ∃ q, Program.parse source = .ok q ∧ q.code = (items.map Prod.fst).toArray := by
  have fit : (items.map Prod.snd).toArray.size = 0 ∨
      (items.map Prod.snd).toArray.size = (items.map Prod.fst).toArray.size := .inr (by simp)
  have hnodup : ((labelTable (items.map Prod.fst).toArray.toList).map Prod.fst).Nodup := by
    rwa [List.toList_toArray]
  obtain ⟨q, hq⟩ := assemble_of_nodup fit hnodup
  exact ⟨q, Except.bind_eq_ok_iff.2 ⟨items, Except.mapM_id_eq_ok_iff.2 h, hq⟩, (of_assemble hq).1⟩

/-- A source whose lines say the code of a program is read as that code -/
theorem parse_of_items {p : Program} (h : Source.items source = items.map .ok)
    (hcode : items.map Prod.fst = p.code.toList) :
    ∃ q, Program.parse source = .ok q ∧ q.code = p.code := by
  have hnodup : ((labelTable (items.map Prod.fst)).map Prod.fst).Nodup := by
    rw [hcode, ← p.labels_eq]
    exact p.labels_nodup
  obtain ⟨q, hq, hqcode⟩ := parse_of_nodup h hnodup
  exact ⟨q, hq, by rw [hqcode, hcode]⟩

/-- Each instruction of a program was read from some line -/
theorem line_of_mem {p : Program} (h : Program.parse source = .ok p) {i : Instruction}
    (hi : i ∈ p.code.toList) : ∃ l ∈ Source.lines source, l.parse = .ok i := by
  obtain ⟨items, hitems, hcode, _⟩ := items_of_parse h
  rw [hcode, List.toList_toArray] at hi
  obtain ⟨⟨j, s⟩, hmem, rfl⟩ := List.mem_map.1 hi
  obtain ⟨k, hk⟩ := List.mem_iff_getElem?.1 hmem
  obtain ⟨l, hl, hparse, _⟩ := line_of_item hitems hk
  exact ⟨l, List.mem_of_getElem? hl, hparse⟩

/-- A program has an instruction, because every source has a line -/
theorem code_ne_nil {p : Program} (h : Program.parse source = .ok p) : p.code.toList ≠ [] := by
  obtain ⟨items, hitems, hcode, _⟩ := items_of_parse h
  have hlength := length_items hitems
  rw [Source.length_lines] at hlength
  rw [hcode, List.toList_toArray]
  intro hnil
  rw [List.map_eq_nil_iff.1 hnil] at hlength
  cases hlength

end RegisterMachine.Program
