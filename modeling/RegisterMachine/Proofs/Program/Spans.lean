import RegisterMachine.Proofs.Machine.Results
import RegisterMachine.Proofs.Program.Items
import RegisterMachine.Proofs.Program.Labels
import RegisterMachine.Proofs.Source.Lines

/-!
# `RegisterMachine.Proofs.Program.Spans` — the lines that faults are about

    fault                       its line                       its span
    of a line                   the first that says nothing    in the line, as the reader says
    of a label defined again    the first that does so         the line without its white end
    of a run                    that of the instruction        the same

A source that is not read has one of the first two (`refuses_or_definesAgain`).
The index of an instruction is that of its line, so that the state in which a run
fails tells the line.  All these spans are of the source (`covers_of_parse_error`,
`covers_of_run`), so a span that is reported starts at a character of the source or
at its end.
-/

namespace RegisterMachine

/-! ## Lines that are refused -/

namespace Source

/-- The line of an index says an instruction -/
def Reads (source : String) (k : Nat) (i : Instruction) : Prop :=
  ∃ l, (lines source)[k]? = some l ∧ l.parse = .ok i

/-- The line of an index is the first that says nothing -/
structure Refuses (source : String) (k : Nat) (d : Diagnostic) : Prop where
  fault : ∃ l, (lines source)[k]? = some l ∧ l.parse = .error d
  first : ∀ j < k, ∃ i, Reads source j i

/-- All lines say something, and the one of an index is the first to say a label that an earlier
line has already said -/
structure DefinesAgain (source : String) (k : Nat) (name : String) : Prop where
  readable : ∀ l ∈ lines source, ∃ i, l.parse = .ok i
  label : Reads source k (.label name)
  earlier : ∃ j < k, Reads source j (.label name)
  first : ∀ k' < k, ∀ other, Reads source k' (.label other) →
    ∀ j < k', ¬ Reads source j (.label other)

variable {source : String} {items : List (Instruction × Span)}

/-- Where all lines say something, the instructions are what they say -/
theorem reads_iff (h : Source.items source = items.map .ok) {k : Nat} {i : Instruction} :
    Reads source k i ↔ (items.map Prod.fst)[k]? = some i := by
  rw [List.getElem?_map, Option.map_eq_some_iff]
  constructor
  · intro hread
    obtain ⟨l, hl, hparse⟩ := hread
    obtain ⟨j, hitem, hparse'⟩ := Program.item_of_line h hl
    rw [hparse] at hparse'
    cases hparse'
    exact ⟨_, hitem, rfl⟩
  · intro hitem
    obtain ⟨⟨_, s⟩, hk, rfl⟩ := hitem
    obtain ⟨l, hl, hparse, _⟩ := Program.line_of_item h hk
    exact ⟨l, hl, hparse⟩

theorem readable_of_items (h : Source.items source = items.map .ok) {l : Line}
    (hl : l ∈ lines source) : ∃ i, l.parse = .ok i := by
  obtain ⟨k, hk⟩ := List.mem_iff_getElem?.1 hl
  obtain ⟨i, _, hparse⟩ := Program.item_of_line h hk
  exact ⟨i, hparse⟩

/-- The first fault among the items is that of the first line that says nothing -/
theorem refuses_of_items {as : List (Instruction × Span)} {d : Diagnostic}
    {ys : List (Except Diagnostic (Instruction × Span))}
    (h : Source.items source = as.map .ok ++ .error d :: ys) : Refuses source as.length d := by
  have hline : ∀ {k : Nat} {r : Except Diagnostic (Instruction × Span)},
      (Source.items source)[k]? = some r →
      ∃ l : Line, (lines source)[k]? = some l ∧ l.parse.map (fun i => (i, l.span)) = r := by
    intro k r hk
    rw [Source.items, List.getElem?_map] at hk
    exact Option.map_eq_some_iff.1 hk
  constructor
  · have hitem : (Source.items source)[as.length]? = some (.error d) := by
      rw [h, List.getElem?_append_right (by simp)]
      simp
    obtain ⟨l, hl, hfault⟩ := hline hitem
    refine ⟨l, hl, ?_⟩
    cases hparse : l.parse with
    | ok i => rw [hparse] at hfault; cases hfault
    | error e => rw [hparse] at hfault; cases hfault; rfl
  · intro j hj
    have hitem : (Source.items source)[j]? = some (.ok as[j]) := by
      rw [h, List.getElem?_append_left (by simpa using hj)]
      simp [hj]
    obtain ⟨l, hl, hread⟩ := hline hitem
    cases hparse : l.parse with
    | ok i => exact ⟨i, l, hl, hparse⟩
    | error e => rw [hparse] at hread; cases hread

end Source

namespace Program

open Machine Source

variable {source : String} {d : Diagnostic}

/-- A source that is no program has a line that says nothing, or a label that is defined again -/
theorem refuses_or_definesAgain (h : Program.parse source = .error d) :
    (∃ k, Refuses source k d) ∨ ∃ k l name, (lines source)[k]? = some l ∧
      DefinesAgain source k name ∧ d = (Cause.labelRedefined name).diagnostic (some l.span) := by
  rcases Except.bind_eq_error_iff.1 h with h | ⟨items, hitems, h⟩
  · obtain ⟨as, ys, hsplit⟩ := Except.mapM_id_eq_error_iff.1 h
    exact .inl ⟨as.length, refuses_of_items hsplit⟩
  · have hitems := Except.mapM_id_eq_ok_iff.1 hitems
    obtain ⟨name, index, hrepeated, rfl⟩ := repeated?_of_assemble h
    rw [List.toList_toArray] at hrepeated
    obtain ⟨⟨hlabel, hearlier⟩, hfirst⟩ := repeated?_labelTable_iff.1 hrepeated
    simp only [← reads_iff hitems] at hlabel hearlier
    obtain ⟨⟨_, s⟩, hitem, _⟩ : ∃ e, items[index]? = some e ∧ e.1 = .label name := by
      rw [reads_iff hitems, List.getElem?_map] at hlabel
      exact Option.map_eq_some_iff.1 hlabel
    obtain ⟨l, hl, _, rfl⟩ := line_of_item hitems hitem
    refine .inr ⟨index, l, name, hl, ⟨fun _ => readable_of_items hitems, hlabel, hearlier, ?_⟩, ?_⟩
    · intro k' hk' other hother j hj hagain
      exact hfirst k' hk' other ⟨(reads_iff hitems).1 hother, j, hj, (reads_iff hitems).1 hagain⟩
    · rw [List.getElem?_toArray, List.getElem?_map, hitem]
      rfl

/-! ## Spans -/

/-- Where an instruction of a program stands is the whole of its line -/
theorem span?_of_parse {p : Program} (h : Program.parse source = .ok p) {k : Nat}
    (hk : k < p.size) : ∃ l, (lines source)[k]? = some l ∧ p.span? k = some l.span := by
  obtain ⟨items, hitems, hcode, hspans⟩ := items_of_parse h
  have hlt : k < items.length := by
    rwa [size, hcode, List.size_toArray, List.length_map] at hk
  obtain ⟨l, hl, _, hspan⟩ := line_of_item hitems (List.getElem?_eq_getElem hlt)
  refine ⟨l, hl, ?_⟩
  rw [span?, hspans, List.getElem?_toArray, List.getElem?_map, List.getElem?_eq_getElem hlt, hspan]
  rfl

theorem within_of_parse_error (h : Program.parse source = .error d) :
    ∃ k l s, d.span = some s ∧ Within source k l s ∧
      (Refuses source k d ∨ s = l.span ∧ ∃ name, DefinesAgain source k name ∧
        d = (Cause.labelRedefined name).diagnostic (some l.span)) := by
  rcases refuses_or_definesAgain h with ⟨k, hrefuses⟩ | ⟨k, l, name, hl, hagain, hd⟩
  · obtain ⟨l, hl, hparse⟩ := hrefuses.fault
    obtain ⟨_, s, hs, hcovers⟩ := Line.blames_parse hparse
    exact ⟨k, l, s, hs, within_of_covers hl hcovers, .inl hrefuses⟩
  · have hwithin := within_of_covers hl (covers_span_self l)
    exact ⟨k, l, l.span, hd ▸ rfl, hwithin, .inr ⟨rfl, name, hagain, hd⟩⟩

theorem within_of_failsIn {p : Program} (h : Program.parse source = .ok p) {limit : Option Nat}
    {s t : State Word} (ht : FailsIn p limit s t d) :
    ∃ l, d.span = some l.span ∧ Within source t.ip l l.span := by
  obtain ⟨hlt, hspan⟩ := ht.span
  obtain ⟨l, hl, hl'⟩ := span?_of_parse h hlt
  exact ⟨l, hspan.trans hl', within_of_covers hl (covers_span_self l)⟩

theorem covers_of_run {p : Program} (h : Program.parse source = .ok p) {limit : Option Nat}
    (hd : p.run limit = some (.error d)) {s : Span} (hs : d.span = some s) :
    (Source.start source).Covers s := by
  obtain ⟨t, ht⟩ := (run_eq_some_iff.1 hd).failsIn
  obtain ⟨l, hl, hwithin⟩ := within_of_failsIn h ht
  rw [hs] at hl
  cases hl
  exact hwithin.covers

theorem covers_of_parse_error (h : Program.parse source = .error d) {s : Span}
    (hs : d.span = some s) : (Source.start source).Covers s := by
  obtain ⟨_, _, _, hspan, hwithin, _⟩ := within_of_parse_error h
  rw [hs] at hspan
  cases hspan
  exact hwithin.covers

/-- Every fault of a source is about a span in the line that caused it.  One of reading is about a
span in the first line that says nothing; or, where all lines say something, about the first line
whose label an earlier line has already defined, all of it but the white space at its end.  One of
a run, the step limit among them, is about the line of the instruction that the run had come to,
again without the white space at its end -/
theorem faults_in_line (source : String) :
    (∀ d, Program.parse source = .error d →
      ∃ k l s, d.span = some s ∧ Within source k l s ∧
        (Refuses source k d ∨ s = l.span ∧ ∃ name, DefinesAgain source k name ∧
          d = (Cause.labelRedefined name).diagnostic (some l.span))) ∧
    ∀ (p : Program) (limit : Option Nat) (d : Diagnostic), Program.parse source = .ok p →
      p.run limit = some (.error d) →
        ∃ t l s, FailsIn p limit (.initial : State Word) t d ∧ d.span = some s ∧
          Within source t.ip l s ∧ s = l.span := by
  refine ⟨fun d => within_of_parse_error, ?_⟩
  intro p limit d hp hrun
  obtain ⟨t, ht⟩ := (run_eq_some_iff.1 hrun).failsIn
  obtain ⟨l, hl, hwithin⟩ := within_of_failsIn hp ht
  exact ⟨t, l, l.span, ht, hl, hwithin, rfl⟩

end Program

end RegisterMachine
