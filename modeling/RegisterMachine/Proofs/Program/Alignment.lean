import RegisterMachine.Proofs.Program.Concatenation
import RegisterMachine.Proofs.Program.LabelTable
import RegisterMachine.Proofs.Source.Reader

/-!
# `RegisterMachine.Proofs.Program.Alignment` — lines, items and instructions have the same index

    the line of an index          between two newlines, behind as many bytes as it says
    the item of the index         what the line says and where it stands, or why it says nothing
    the instruction of the index  the same, if the source is a program

A source is no program for one of two reasons, and is refused for the first of its kind
(`parse_eq_error_iff`): a line that says nothing, whatever the labels are; or, if all lines say
something, a label that an earlier line has already defined.
-/

namespace RegisterMachine

open Source

variable {source : String}

/-! ## Labels that are defined again -/

/-- There is one label that is the first to be defined again -/
theorem Source.DefinesAgain.unique {k k' : Nat} {name name' : String}
    (h : DefinesAgain source k name) (h' : DefinesAgain source k' name') :
    k = k' ∧ name = name' := by
  rcases Nat.lt_trichotomy k k' with hlt | rfl | hlt
  · obtain ⟨j, hj, hagain⟩ := h.earlier
    exact absurd hagain (h'.first k hlt name h.label j hj)
  · obtain ⟨l, hl, hlabel⟩ := h.label
    obtain ⟨l', hl', hlabel'⟩ := h'.label
    rw [hl] at hl'
    cases hl'
    rw [hlabel] at hlabel'
    cases hlabel'
    exact ⟨rfl, rfl⟩
  · obtain ⟨j, hj, hagain⟩ := h'.earlier
    exact absurd hagain (h.first k' hlt name' h'.label j hj)

namespace Program

/-- Two lines of a program do not define the same label -/
theorem eq_of_reads_label {p : Program} (hp : parse source = .ok p) {j k : Nat} {name : String}
    (hj : Reads source j (.label name)) (hk : Reads source k (.label name)) : j = k := by
  obtain ⟨items, hitems, hcode, _⟩ := items_of_parse hp
  have hlabel : ∀ {index : Nat}, Reads source index (.label name) → p.label? name = some index := by
    intro index h
    rw [label?_eq_some_iff, get?, hcode, List.getElem?_toArray]
    exact (reads_iff hitems).1 h
  have heq := (hlabel hj).symm.trans (hlabel hk)
  exact Option.some.inj heq

theorem parse_of_definesAgain {k : Nat} {l : Line} {name : String}
    (hl : (lines source)[k]? = some l) (h : DefinesAgain source k name) :
    parse source = .error ⟨.parse, "Label '" ++ name ++ "' already defined", some l.span⟩ := by
  cases hparse : parse source with
  | ok p =>
    obtain ⟨j, hj, hagain⟩ := h.earlier
    exact absurd (eq_of_reads_label hparse hagain h.label) (Nat.ne_of_lt hj)
  | error d =>
    rcases refuses_or_definesAgain hparse with ⟨k', hrefuses⟩ | ⟨k', l', name', hl', hagain, rfl⟩
    · exact absurd h.readable hrefuses.not_readable
    · obtain ⟨rfl, rfl⟩ := h.unique hagain
      rw [hl] at hl'
      cases hl'
      rw [Cause.diagnostic_labelRedefined]

/-- What a source is refused for, if it is no program -/
theorem parse_eq_error_iff {d : Diagnostic} :
    parse source = .error d ↔ (∃ k, Refuses source k d) ∨
      ∃ k l name, (lines source)[k]? = some l ∧ DefinesAgain source k name ∧
        d = ⟨.parse, "Label '" ++ name ++ "' already defined", some l.span⟩ := by
  constructor
  · intro h
    rcases refuses_or_definesAgain h with hrefuses | ⟨k, l, name, hl, hagain, rfl⟩
    · exact .inl hrefuses
    · exact .inr ⟨k, l, name, hl, hagain, Cause.diagnostic_labelRedefined name _⟩
  · rintro (⟨k, hrefuses⟩ | ⟨k, l, name, hl, hagain, rfl⟩)
    · exact parse_of_refuses hrefuses
    · exact parse_of_definesAgain hl hagain

/-- A source is no program exactly if a line says nothing or two lines define the same label -/
theorem parse_isError_iff :
    (∃ d, parse source = .error d) ↔ (∃ d, .error d ∈ items source) ∨
      ∃ j k name, j < k ∧ Reads source j (.label name) ∧ Reads source k (.label name) := by
  constructor
  · rintro ⟨d, h⟩
    rcases refuses_or_definesAgain h with ⟨k, hrefuses⟩ | ⟨k, _, name, _, hagain, _⟩
    · obtain ⟨l, hl, hfault⟩ := hrefuses.fault
      refine .inl ⟨d, List.mem_of_getElem? (i := k) ?_⟩
      rw [getElem?_items hl, Line.item, hfault]
      rfl
    · obtain ⟨j, hj, hearlier⟩ := hagain.earlier
      exact .inr ⟨j, k, name, hj, hearlier, hagain.label⟩
  · intro h
    cases hparse : parse source with
    | error d => exact ⟨d, rfl⟩
    | ok p =>
      obtain ⟨is, his, _⟩ := items_of_parse hparse
      rcases h with ⟨d, hd⟩ | ⟨j, k, name, hj, hearlier, hagain⟩
      · rw [his] at hd
        obtain ⟨_, _, hok⟩ := List.mem_map.1 hd
        cases hok
      · exact absurd (eq_of_reads_label hparse hearlier hagain) (Nat.ne_of_lt hj)

/-- The items of a source that is a program are its instructions, with their places -/
theorem items_eq_zip {p : Program} (h : parse source = .ok p) :
    p.spans.size = p.code.size ∧
      items source = (p.code.toList.zip p.spans.toList).map .ok := by
  obtain ⟨is, his, hcode, hspans⟩ := items_of_parse h
  constructor
  · simp [hcode, hspans]
  · rw [hcode, hspans, List.toList_toArray, List.toList_toArray, List.zip_map', List.map_id']
    exact his

/-- A source read line by line yields one item more than it has newlines.  The item of an index is
what the piece of that index between newlines says at the byte where it starts, and it stands at the
bytes of the piece without the white space at its end.  What is before a newline and what is behind
it yield what they yield alone, the second further behind, faults or not.  The source is no program
exactly if an item is a fault or two lines define the same label.  It is refused for the first
fault; or, where there is none, for the first label that an earlier line has already defined.  And
if it is a program, the instruction of an index is the item of that index -/
theorem parse_aligned (source : String) :
    (∀ xs, (Reader.start source).Yields xs ↔ xs = items source) ∧
    (items source).length = source.toList.count '\n' + 1 ∧
    (lines source).map (fun l => l.text.toList) = source.toList.splitOn '\n' ∧
    (∀ k l, (lines source)[k]? = some l →
      (∃ before behind, source.toList = before ++ (l.text.toList ++ behind) ∧
        l.offset = Text.byteLength before ∧ before.count '\n' = k) ∧
      (items source)[k]? = some (l.parse.map fun i => (i, l.span)) ∧
      bytesIn source l.span = Text.bytes (String.ofList (Text.trimEnd l.text.toList))) ∧
    (∀ before behind, source = before ++ "\n" ++ behind →
      items source =
        items before ++ (items behind).map (Line.shiftItem (before.utf8ByteSize + 1))) ∧
    ((∃ d, parse source = .error d) ↔ (∃ d, .error d ∈ items source) ∨
      ∃ j k name, j < k ∧ Reads source j (.label name) ∧ Reads source k (.label name)) ∧
    (∀ d, parse source = .error d ↔ (∃ k, Refuses source k d) ∨
      ∃ k l name, (lines source)[k]? = some l ∧ DefinesAgain source k name ∧
        d = ⟨.parse, "Label '" ++ name ++ "' already defined", some l.span⟩) ∧
    ∀ p, parse source = .ok p → p.spans.size = p.code.size ∧
      items source = (p.code.toList.zip p.spans.toList).map .ok := by
  refine ⟨?_, ?_, map_text_lines source, ?_, ?_, parse_isError_iff, ?_, ?_⟩
  · intro xs
    exact Reader.yields_iff
  · rw [items, List.length_map, length_lines]
  · intro k l hl
    exact ⟨piece_of_line hl, getElem?_items hl, bytesIn_span hl⟩
  · rintro before behind rfl
    exact items_concat
  · intro d
    exact parse_eq_error_iff
  · intro p hp
    exact items_eq_zip hp

end Program

end RegisterMachine
