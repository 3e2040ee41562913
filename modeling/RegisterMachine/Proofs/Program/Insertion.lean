import RegisterMachine.Proofs.Program.Items
import RegisterMachine.Proofs.Program.Labels

/-!
# `RegisterMachine.Proofs.Program.Insertion` — one line more in a program

A line is put in front of the instruction of index `k`, or behind the last one.
All instructions from `k` on move by one, those before `k` stay:

    index      0 … k - 1      k       k + 1 …
    moves to   the same       k + 1   one more

Wherever an instruction of the shorter program is, the longer one has the same
(`Inserted.get?_shift`).  If the line is `Inert`, every label that an
instruction goes to has moved in the same way, and those that were missing are
still missing (`Inserted.label?_target`).  And the longer program is one:
nothing that was defined once is now defined twice (`Program.assemble_insert`).
-/

namespace RegisterMachine

/-- The name that an instruction defines, if it is a label -/
def Instruction.defines? : Instruction → Option String
  | .label name => some name
  | _ => none

/-- The names in a label table are those that the code defines -/
theorem map_fst_labelTable (code : List Instruction) :
    (labelTable code).map Prod.fst = code.filterMap Instruction.defines? := by
  rw [labelTable, List.map_filterMap]
  calc code.zipIdx.filterMap _
      = code.zipIdx.filterMap (Instruction.defines? ∘ Prod.fst) := by
        refine congrArg (List.filterMap · code.zipIdx) (funext ?_)
        intro e
        obtain ⟨i, index⟩ := e
        cases i <;> rfl
    _ = (code.zipIdx.map Prod.fst).filterMap Instruction.defines? := List.filterMap_map.symm
    _ = code.filterMap Instruction.defines? := by rw [List.zipIdx_map_fst]

/-! ## Lines that do nothing -/

/-- A line that does nothing in some code: a comment, or a label that the code neither defines
already nor goes to -/
inductive Inert (code : Array Instruction) : Instruction → Prop
  | comment : Inert code .comment
  | label {name : String} :
      .label name ∉ code → (∀ i ∈ code, i.target? ≠ some name) → Inert code (.label name)

theorem Inert.ne_halt {code : Array Instruction} {line : Instruction} (h : Inert code line) :
    line ≠ .halt := by
  cases h with
  | comment | label => exact nofun

theorem Inert.ne_label {code : Array Instruction} {line i : Instruction} {name : String}
    (h : Inert code line) (hi : i ∈ code) (htarget : i.target? = some name) :
    line ≠ .label name := by
  rintro rfl
  cases h with
  | label _ hnone => exact hnone i hi htarget

/-- A line that does nothing defines no name again -/
theorem Inert.nodup_defines {code : Array Instruction} {line : Instruction} (h : Inert code line)
    (hnodup : (code.toList.filterMap Instruction.defines?).Nodup) :
    ((line :: code.toList).filterMap Instruction.defines?).Nodup := by
  cases h with
  | comment => exact hnodup
  | @label name hnew _ =>
    refine List.nodup_cons.2 ⟨?_, hnodup⟩
    intro hmem
    obtain ⟨i, hi, hname⟩ := List.mem_filterMap.1 hmem
    cases i <;> cases hname
    exact hnew (Array.mem_toList_iff.1 hi)

/-! ## Where things are -/

/-- Where the instruction of an index is after a line was put in at `k` -/
def shift (k index : Nat) : Nat :=
  if index < k then index else index + 1

theorem shift_of_lt {k index : Nat} (h : index < k) : shift k index = index :=
  if_pos h

theorem shift_of_le {k index : Nat} (h : k ≤ index) : shift k index = index + 1 :=
  if_neg (Nat.not_lt.2 h)

/-- The one program is the other with a line put in at `k` that does nothing there -/
structure Inserted (k : Nat) (line : Instruction) (p q : Program) : Prop where
  le : k ≤ p.code.size
  inert : Inert p.code line
  code : q.code = p.code.insertIdx k line le

namespace Inserted

variable {k : Nat} {line : Instruction} {p q : Program}

theorem get?_self (h : Inserted k line p q) : q.get? k = some line := by
  rw [Program.get?, h.code, Array.getElem?_insertIdx_self]

theorem get?_shift (h : Inserted k line p q) (index : Nat) :
    q.get? (shift k index) = p.get? index := by
  rw [Program.get?, Program.get?, h.code]
  rcases Nat.lt_or_ge index k with hlt | hle
  · rw [shift_of_lt hlt, Array.getElem?_insertIdx_of_lt _ hlt]
  · rw [shift_of_le hle, Array.getElem?_insertIdx h.le,
      if_neg (Nat.not_lt.2 (Nat.le_succ_of_le hle)),
      if_neg (Nat.ne_of_gt (Nat.lt_succ_of_le hle)), Nat.add_sub_cancel]

/-- A name that the line does not define moves with its label -/
theorem label?_of_ne (h : Inserted k line p q) {name : String} (hne : line ≠ .label name) :
    q.label? name = (p.label? name).map (shift k) := by
  cases hl : p.label? name with
  | some index =>
    rw [Option.map_some, Program.label?_eq_some_iff, h.get?_shift]
    exact Program.label?_eq_some_iff.1 hl
  | none =>
    rw [Option.map_none, Program.label?_eq_none_iff, h.code, Array.mem_insertIdx, not_or]
    exact ⟨hne.symm, Program.label?_eq_none_iff.1 hl⟩

/-- Where an instruction goes to has moved with the label, or is missing as before -/
theorem label?_target (h : Inserted k line p q) {index : Nat} {i : Instruction} {name : String}
    (hi : p.get? index = some i) (htarget : i.target? = some name) :
    q.label? name = (p.label? name).map (shift k) :=
  h.label?_of_ne (h.inert.ne_label (Array.mem_of_getElem? hi) htarget)

end Inserted

/-! ## The longer program -/

/-- A program that takes a line which does nothing is a program again -/
theorem Program.assemble_insert {code : Array Instruction} {k : Nat} {line : Instruction}
    {p : Program} (hp : assemble code #[] (.inl rfl) = .ok p) (hk : k ≤ code.size)
    (hline : Inert code line) :
    ∃ q, assemble (code.insertIdx k line hk) #[] (.inl rfl) = .ok q ∧ Inserted k line p q := by
  obtain ⟨rfl, -⟩ := of_assemble hp
  have hnodup := p.labels_nodup
  rw [p.labels_eq, map_fst_labelTable] at hnodup
  have hlonger : ((labelTable (p.code.insertIdx k line hk).toList).map Prod.fst).Nodup := by
    have hperm := List.perm_insertIdx line p.code.toList hk
    rw [map_fst_labelTable, Array.toList_insertIdx]
    exact (hperm.filterMap Instruction.defines?).nodup_iff.2 (hline.nodup_defines hnodup)
  have hfit : (#[] : Array Span).size = 0 ∨
      (#[] : Array Span).size = (p.code.insertIdx k line hk).size := .inl rfl
  obtain ⟨q, hq⟩ := assemble_of_nodup hfit hlonger
  exact ⟨q, hq, hk, hline, (of_assemble hq).1⟩

end RegisterMachine
