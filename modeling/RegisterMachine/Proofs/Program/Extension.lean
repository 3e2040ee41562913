import RegisterMachine.Proofs.Program.Items
import RegisterMachine.Proofs.Program.Labels
import RegisterMachine.Proofs.Source.Lines

/-!
# `RegisterMachine.Proofs.Program.Extension` — programs with more instructions behind

A program extends another if it starts with all of its instructions, standing at
the same places.  What is looked up in the shorter one and found is found in the
longer one as well, a label too: no name stands twice, so that an instruction
further behind cannot take one away.  What is not found may be found now.

Source text behind the last line of a source makes such a program
(`extends_of_parse`).
-/

namespace RegisterMachine.Program

/-- The second program starts with all the instructions of the first, at the same places -/
structure Extends (p q : Program) : Prop where
  code : p.code.toList <+: q.code.toList
  span? : ∀ {index : Nat}, index < p.size → q.span? index = p.span? index

namespace Extends

variable {p q : Program} {index : Nat} {name : String}

theorem get? (h : Extends p q) {i : Instruction} (hi : p.get? index = some i) :
    q.get? index = some i := by
  obtain ⟨more, hmore⟩ := h.code
  have hindex : index < p.code.toList.length := lt_size_of_get? hi
  rw [Program.get?, ← Array.getElem?_toList] at hi ⊢
  rw [← hmore, List.getElem?_append_left hindex, hi]

theorem label? (h : Extends p q) (hl : p.label? name = some index) :
    q.label? name = some index :=
  label?_eq_some_iff.2 (h.get? (label?_eq_some_iff.1 hl))

end Extends

/-- Behind a newline there may be more source text, if what comes out is a program -/
theorem extends_of_parse {s t : String} {p q : Program} (hp : Program.parse s = .ok p)
    (hq : Program.parse (s ++ "\n" ++ t) = .ok q) : Extends p q := by
  obtain ⟨items, hitems, hcode, hspans⟩ := items_of_parse hp
  obtain ⟨items', hitems', hcode', hspans'⟩ := items_of_parse hq
  obtain ⟨more, rfl⟩ : ∃ more, items' = items ++ more := by
    rw [Source.items, Source.lines_append, List.map_append] at hitems'
    change Source.items s ++ _ = _ at hitems'
    rw [hitems] at hitems'
    obtain ⟨front, back, rfl, hfront, _⟩ := List.map_eq_append_iff.1 hitems'.symm
    obtain rfl := (List.map_inj_right fun _ _ h => Except.ok.inj h).1 hfront
    exact ⟨back, rfl⟩
  constructor
  · rw [hcode, hcode', List.map_append]
    exact List.prefix_append _ _
  · intro index hindex
    rw [Program.size, hcode, List.size_toArray, List.length_map] at hindex
    rw [Program.span?, Program.span?, hspans, hspans', List.map_append, List.getElem?_toArray,
      List.getElem?_toArray, List.getElem?_append_left (by rwa [List.length_map])]

end RegisterMachine.Program
