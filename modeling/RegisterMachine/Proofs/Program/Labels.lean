import Mathlib.Data.List.Nodup
import RegisterMachine.Program
import RegisterMachine.Proofs.Registers.Entries

/-!
# `RegisterMachine.Proofs.Program.Labels` — the label table against the code

The label table of a program is a list, made once when the program is
assembled.  Nothing in it is news: a name is at an index exactly if the
instruction of that index is the label of that name (`label?_eq_some_iff`), and
a name is nowhere exactly if no instruction is (`label?_eq_none_iff`).  So the
table can be forgotten, and a jump be followed in the code.
-/

namespace RegisterMachine

/-- The name that an instruction jumps to or calls, if it is one that does -/
def Instruction.target? : Instruction → Option String
  | .jump _ target | .call target => some target
  | _ => none

/-! ## Entries -/

/-- The entries of a label table are the labels of the code, each with its index -/
theorem mem_labelTable_iff {code : List Instruction} {name : String} {index : Nat} :
    (name, index) ∈ labelTable code ↔ code[index]? = some (.label name) := by
  rw [labelTable, List.mem_filterMap]
  constructor
  · intro h
    obtain ⟨⟨i, j⟩, hmem, hentry⟩ := h
    cases i <;> cases hentry
    exact List.mk_mem_zipIdx_iff_getElem?.1 hmem
  · intro h
    exact ⟨_, List.mk_mem_zipIdx_iff_getElem?.2 h, rfl⟩

/-! ## Labels that are defined again -/

/-- The instruction of an index is a label, and an earlier instruction is the same one -/
def Redefines (code : List Instruction) (index : Nat) (name : String) : Prop :=
  code[index]? = some (.label name) ∧ ∃ earlier < index, code[earlier]? = some (.label name)

/-- A repeated entry has a name that was seen before, and no entry before it has -/
theorem of_repeated? {seen : List String} {es : List (String × Nat)} {e : String × Nat}
    (h : repeated? seen es = some e) : ∃ front back, es = front ++ e :: back ∧
      (e.1 ∈ seen ∨ e.1 ∈ front.map Prod.fst) ∧ repeated? seen front = none := by
  induction es generalizing seen with
  | nil => cases h
  | cons f es ih =>
    rw [repeated?] at h
    split at h
    · rename_i hf
      cases h
      exact ⟨[], es, rfl, .inl hf, rfl⟩
    · rename_i hf
      obtain ⟨front, back, rfl, hname, hnone⟩ := ih h
      refine ⟨f :: front, back, rfl, ?_, by rw [repeated?, if_neg hf, hnone]⟩
      rw [List.map_cons, List.mem_cons]
      rcases hname with hname | hname
      · rcases List.mem_cons.1 hname with heq | hmem
        · exact .inr (.inl heq)
        · exact .inl hmem
      · exact .inr (.inr hname)

/-- The entries of a label table are in the order of the code -/
theorem pairwise_labelTable (code : List Instruction) :
    (labelTable code).Pairwise fun e f => e.2 < f.2 := by
  have hindices : code.zipIdx.Pairwise fun e f => e.2 < f.2 := by
    have hrange : (code.zipIdx.map Prod.snd).Pairwise (· < ·) := by
      rw [List.zipIdx_map_snd]
      exact List.pairwise_lt_range'
    exact List.pairwise_map.1 hrange
  refine hindices.filterMap _ ?_
  rintro ⟨i, index⟩ ⟨i', index'⟩ hlt e he f hf
  cases i <;> cases he
  cases i' <;> cases hf
  exact hlt

theorem redefines_of_repeated? {code : List Instruction} {name : String} {index : Nat}
    (h : repeated? [] (labelTable code) = some (name, index)) :
    Redefines code index name ∧ ∀ k < index, ∀ other, ¬ Redefines code k other := by
  obtain ⟨front, back, hsplit, hname, hnone⟩ := of_repeated? h
  have horder := pairwise_labelTable code
  rw [hsplit, List.pairwise_append, List.pairwise_cons] at horder
  obtain ⟨_, ⟨hback, _⟩, hfront⟩ := horder
  -- what stands earlier in the code has its entry in the front part
  have hearlier : ∀ {other k}, code[k]? = some (.label other) → k < index → (other, k) ∈ front := by
    intro other k hk hlt
    have hmem := mem_labelTable_iff.2 hk
    rw [hsplit, List.mem_append, List.mem_cons] at hmem
    rcases hmem with hmem | heq | hmem
    · exact hmem
    · cases heq
      exact absurd hlt (Nat.lt_irrefl _)
    · exact absurd hlt (Nat.lt_asymm (hback _ hmem))
  refine ⟨⟨mem_labelTable_iff.1 (hsplit ▸ List.mem_append_right _ List.mem_cons_self), ?_⟩, ?_⟩
  · rcases hname with hname | hname
    · cases hname
    · obtain ⟨⟨_, j⟩, hmem, rfl⟩ := List.mem_map.1 hname
      refine ⟨j, hfront _ hmem _ List.mem_cons_self, mem_labelTable_iff.1 ?_⟩
      exact hsplit ▸ List.mem_append_left _ hmem
  · intro k hk other hother
    obtain ⟨hlabel, j, hj, hagain⟩ := hother
    have hnodup := (repeated?_eq_none_iff.1 hnone).2
    have heq := List.inj_on_of_nodup_map hnodup (hearlier hlabel hk)
      (hearlier hagain (Nat.lt_trans hj hk)) rfl
    cases heq
    exact absurd hj (Nat.lt_irrefl k)

/-- Where nothing is repeated, a label stands at one index only -/
theorem index_unique {code : List Instruction} (h : repeated? [] (labelTable code) = none)
    {i j : Nat} {name : String} (hi : code[i]? = some (.label name))
    (hj : code[j]? = some (.label name)) : i = j := by
  have hnodup := (repeated?_eq_none_iff.1 h).2
  have heq := List.inj_on_of_nodup_map hnodup (mem_labelTable_iff.2 hi)
    (mem_labelTable_iff.2 hj) rfl
  exact (Prod.mk.inj heq).2

/-- What is repeated in a label table is the first label that is defined again -/
theorem repeated?_labelTable_iff {code : List Instruction} {name : String} {index : Nat} :
    repeated? [] (labelTable code) = some (name, index) ↔
      Redefines code index name ∧ ∀ k < index, ∀ other, ¬ Redefines code k other := by
  refine ⟨redefines_of_repeated?, ?_⟩
  rintro ⟨⟨hlabel, j, hj, hagain⟩, hfirst⟩
  cases h : repeated? [] (labelTable code) with
  | none => exact absurd (index_unique h hagain hlabel) (Nat.ne_of_lt hj)
  | some e =>
    obtain ⟨other, k⟩ := e
    obtain ⟨hother, hleast⟩ := redefines_of_repeated? h
    rcases Nat.lt_trichotomy k index with hlt | rfl | hlt
    · exact absurd hother (hfirst k hlt other)
    · rw [hother.1] at hlabel
      cases hlabel
      rfl
    · exact absurd ⟨hlabel, j, hj, hagain⟩ (hleast index hlt name)

/-! ## Look-ups in a program -/

namespace Program

variable {p : Program} {name : String} {index : Nat}

/-- A name is at an index exactly if its label is -/
theorem label?_eq_some_iff : p.label? name = some index ↔ p.get? index = some (.label name) := by
  rw [label?, Entries.lookup_eq_some_iff_mem p.labels_nodup, p.labels_eq, mem_labelTable_iff,
    Array.getElem?_toList, get?]

/-- A name is nowhere exactly if no instruction is its label -/
theorem label?_eq_none_iff : p.label? name = none ↔ .label name ∉ p.code := by
  rw [Array.mem_iff_getElem?]
  constructor
  · intro h hmem
    obtain ⟨index, hindex⟩ := hmem
    rw [label?_eq_some_iff.2 hindex] at h
    cases h
  · intro h
    cases hl : p.label? name with
    | none => rfl
    | some index => exact absurd ⟨index, label?_eq_some_iff.1 hl⟩ h

theorem findLabel_eq_ok_iff : p.findLabel name = .ok index ↔ p.label? name = some index := by
  unfold findLabel
  cases p.label? name <;> simp

theorem findLabel_eq_error_iff {c : Cause} :
    p.findLabel name = .error c ↔ p.label? name = none ∧ c = .unknownLabel name := by
  unfold findLabel
  cases p.label? name <;> simp [eq_comm]

/-- An instruction of a program has an index within it -/
theorem lt_size_of_get? {i : Instruction} (h : p.get? index = some i) : index < p.size :=
  (Array.getElem?_eq_some_iff.1 h).1

theorem get?_eq_none_iff : p.get? index = none ↔ p.size ≤ index :=
  Array.getElem?_eq_none_iff

end Program

end RegisterMachine
