import RegisterMachine.Proofs.Program.Insertion

/-!
# `RegisterMachine.Proofs.Program.LabelTable` — which code is a program, and its labels

Code is a program if no label stands twice in it.  Otherwise it is refused for the first label
that stands there again, with the place of that one if places are known.

The table that a program carries lists its labels.  `enterLabels` makes a table in another way: it
goes through the code once, writes each label into a hash table over whatever is there, and stops
if something was.  What it has written is always what the list says so far (`Lists`), and so the
two ways agree:

    the list repeats nothing    the loop ends with what the list holds   (`lists_of_enterLabels`)
    the list repeats an entry   the loop stops at that entry         (`enterLabels_eq_error_iff`)
-/

namespace RegisterMachine

/-! ## The loop over the code -/

/-- Writes the labels of code into a table one after the other, each with its index, and stops at
one whose name has been written before -/
def enterLabels (table : Std.HashMap String Nat) :
    List (Instruction × Nat) → Except (String × Nat) (Std.HashMap String Nat)
  | [] => .ok table
  | (i, index) :: rest =>
    match i.defines? with
    | none => enterLabels table rest
    | some name =>
      let before := table[name]?
      let table := table.insert name index
      if before.isSome then .error (name, index) else enterLabels table rest

/-- The label that an instruction at an index defines, with the index -/
def labelAt? (e : Instruction × Nat) : Option (String × Nat) :=
  e.1.defines?.map (·, e.2)

theorem labelTable_eq (code : List Instruction) :
    labelTable code = code.zipIdx.filterMap labelAt? := by
  rw [labelTable]
  refine congrArg (List.filterMap · code.zipIdx) (funext ?_)
  rintro ⟨i, index⟩
  cases i <;> rfl

/-- The table holds what the list does, and nothing else -/
structure Lists (table : Std.HashMap String Nat) (es : List (String × Nat)) : Prop where
  lookup : ∀ name, table[name]? = es.lookup name
  size : table.size = es.length

theorem lists_empty : Lists ∅ [] :=
  ⟨fun _ => Std.HashMap.getElem?_empty, Std.HashMap.size_empty⟩

/-- A table that lists some labels lists one more when that is written into it -/
theorem Lists.insert {table : Std.HashMap String Nat} {es : List (String × Nat)} {name : String}
    (h : Lists table es) (hnew : table[name]? = none) (index : Nat) :
    Lists (table.insert name index) (es ++ [(name, index)]) := by
  constructor
  · intro m
    rw [Std.HashMap.getElem?_insert, List.lookup_append, ← h.lookup, Entries.lookup_cons_eq]
    by_cases hm : m = name
    · subst hm
      simp [hnew]
    · have hne : (name == m) = false := beq_false_of_ne (Ne.symm hm)
      simp [hm, hne]
  · have hmem : name ∉ table := by
      rw [Std.HashMap.mem_iff_isSome_getElem?, hnew]
      exact nofun
    rw [Std.HashMap.size_insert, if_neg hmem, h.size, List.length_append]
    rfl

/-- What the loop has written is what the list says so far, and it stops where the list repeats -/
theorem enterLabels_spec {table : Std.HashMap String Nat} {es : List (String × Nat)}
    {seen : List String} (h : Lists table es)
    (hseen : ∀ name, name ∈ seen ↔ (table[name]?).isSome = true) (rest : List (Instruction × Nat)) :
    (∀ e, enterLabels table rest = .error e ↔
      repeated? seen (rest.filterMap labelAt?) = some e) ∧
    ∀ table', enterLabels table rest = .ok table' →
      Lists table' (es ++ rest.filterMap labelAt?) := by
  induction rest generalizing table es seen with
  | nil =>
    refine ⟨fun e => ⟨nofun, nofun⟩, ?_⟩
    rintro table' ⟨⟩
    rwa [List.filterMap_nil, List.append_nil]
  | cons e rest ih =>
    obtain ⟨i, index⟩ := e
    cases hi : i.defines? with
    | none =>
      have hentry : labelAt? (i, index) = none := by simp [labelAt?, hi]
      rw [List.filterMap_cons_none hentry, enterLabels, hi]
      exact ih h hseen
    | some name =>
      have hentry : labelAt? (i, index) = some (name, index) := by simp [labelAt?, hi]
      rw [List.filterMap_cons_some hentry, enterLabels, hi, repeated?]
      by_cases hname : name ∈ seen
      · have hsome := (hseen name).1 hname
        simp [hname, hsome]
      · have hnone : table[name]? = none := by
          rw [hseen, Bool.not_eq_true, Option.isSome_eq_false_iff,
            Option.isNone_iff_eq_none] at hname
          exact hname
        have hnext : ∀ m, m ∈ name :: seen ↔ ((table.insert name index)[m]?).isSome = true := by
          intro m
          rw [List.mem_cons, hseen, Std.HashMap.getElem?_insert]
          by_cases hm : name = m
          · simp [hm]
          · simp [hm, Ne.symm hm]
        obtain ⟨herror, hok⟩ := ih (h.insert hnone index) hnext
        simp only [hnone, hname, Option.isSome_none, Bool.false_eq_true, if_false]
        refine ⟨herror, ?_⟩
        intro table' htable'
        have hlists := hok table' htable'
        rwa [List.append_assoc] at hlists

theorem enterLabels_eq_error_iff {code : List Instruction} {e : String × Nat} :
    enterLabels ∅ code.zipIdx = .error e ↔ repeated? [] (labelTable code) = some e := by
  rw [labelTable_eq]
  exact (@enterLabels_spec ∅ [] [] lists_empty (by simp) code.zipIdx).1 e

theorem lists_of_enterLabels {code : List Instruction} {table : Std.HashMap String Nat}
    (h : enterLabels ∅ code.zipIdx = .ok table) : Lists table (labelTable code) := by
  rw [labelTable_eq]
  exact (@enterLabels_spec ∅ [] [] lists_empty (by simp) code.zipIdx).2 table h

/-! ## Code that is a program -/

/-- No label stands at two places of the code -/
def LabelsDiffer (code : List Instruction) : Prop :=
  ∀ (i j : Nat) (name : String),
    code[i]? = some (.label name) → code[j]? = some (.label name) → i = j

theorem repeated?_eq_none_iff_labelsDiffer {code : List Instruction} :
    repeated? [] (labelTable code) = none ↔ LabelsDiffer code := by
  constructor
  · intro h i j name hi hj
    exact index_unique h hi hj
  · intro h
    cases hr : repeated? [] (labelTable code) with
    | none => rfl
    | some e =>
      obtain ⟨⟨hlabel, j, hj, hagain⟩, _⟩ := redefines_of_repeated? hr
      exact absurd (h _ _ _ hagain hlabel) (Nat.ne_of_lt hj)

/-- The label is the first of the code that an earlier instruction has already defined -/
def FirstRedefined (code : List Instruction) (index : Nat) (name : String) : Prop :=
  Redefines code index name ∧ ∀ k < index, ∀ other, ¬ Redefines code k other

theorem Cause.diagnostic_labelRedefined (name : String) (span : Option Span) :
    (Cause.labelRedefined name).diagnostic span =
      ⟨.parse, "Label '" ++ name ++ "' already defined", span⟩ := by
  have hmessage : "Label " ++ ("'" ++ name ++ "'") ++ " already defined" =
      "Label '" ++ name ++ "' already defined" := by
    simp [← String.toList_inj]
  rw [← hmessage]
  rfl

namespace Program

variable {code : Array Instruction} {spans : Array Span}
  {fit : spans.size = 0 ∨ spans.size = code.size}

theorem assemble_of_repeated? {name : String} {index : Nat}
    (h : repeated? [] (labelTable code.toList) = some (name, index)) :
    assemble code spans fit = .error ((Cause.labelRedefined name).diagnostic spans[index]?) := by
  unfold assemble
  split
  · rename_i hrepeated
    rw [h] at hrepeated
    cases hrepeated
    rfl
  · rename_i hnone
    rw [h] at hnone
    cases hnone

theorem assemble_eq_error_iff {d : Diagnostic} :
    assemble code spans fit = .error d ↔ ∃ index name, FirstRedefined code.toList index name ∧
      d = ⟨.parse, "Label '" ++ name ++ "' already defined", spans[index]?⟩ := by
  constructor
  · intro h
    obtain ⟨name, index, hrepeated, rfl⟩ := repeated?_of_assemble h
    refine ⟨index, name, repeated?_labelTable_iff.1 hrepeated, ?_⟩
    exact Cause.diagnostic_labelRedefined name _
  · rintro ⟨index, name, hfirst, rfl⟩
    rw [assemble_of_repeated? (repeated?_labelTable_iff.2 hfirst)]
    exact congrArg Except.error (Cause.diagnostic_labelRedefined name _)

theorem assemble_isOk_iff :
    (∃ p, assemble code spans fit = .ok p) ↔ LabelsDiffer code.toList := by
  rw [← repeated?_eq_none_iff_labelsDiffer]
  constructor
  · rintro ⟨p, hp⟩
    cases hr : repeated? [] (labelTable code.toList) with
    | none => rfl
    | some e =>
      rw [assemble_of_repeated? hr] at hp
      cases hp
  · intro h
    exact assemble_of_nodup fit (repeated?_eq_none_iff.1 h).2

/-- The labels of a program are as many as the instructions that are labels -/
theorem length_labels (p : Program) :
    p.labels.length = p.code.toList.countP fun i => i.defines?.isSome := by
  rw [p.labels_eq, ← List.length_filterMap_eq_countP, ← map_fst_labelTable, List.length_map]

/-- A program has the labels that the loop over its code writes down -/
theorem enterLabels_eq (p : Program) :
    ∃ table, enterLabels ∅ p.code.toList.zipIdx = .ok table ∧ table.size = p.labels.length ∧
      ∀ name, table[name]? = p.label? name := by
  cases h : enterLabels ∅ p.code.toList.zipIdx with
  | ok table =>
    have hlists := lists_of_enterLabels h
    rw [← p.labels_eq] at hlists
    exact ⟨table, rfl, hlists.size, hlists.lookup⟩
  | error e =>
    have hnodup := p.labels_nodup
    rw [p.labels_eq] at hnodup
    have hnone := repeated?_eq_none_iff.2 ⟨fun _ _ => List.not_mem_nil, hnodup⟩
    rw [enterLabels_eq_error_iff, hnone] at h
    cases h

/-- Code is a program exactly if no label stands twice in it.  A label of the program is found at
the index of its instruction and at no other, every other name is unknown, and there are as many
labels as instructions that are labels; a table written in one pass over the code holds the same.
Code that is no program is refused for the first label that an earlier instruction has already
defined, with the place of that one exactly if places are given; and that is where the pass stops -/
theorem assemble_exact (code : Array Instruction) (spans : Array Span)
    (fit : spans.size = 0 ∨ spans.size = code.size) :
    ((∃ p, assemble code spans fit = .ok p) ↔ LabelsDiffer code.toList) ∧
    (∀ p, assemble code spans fit = .ok p →
      p.code = code ∧ p.spans = spans ∧
      (∀ name index, p.findLabel name = .ok index ↔ code[index]? = some (.label name)) ∧
      (∀ name, (∀ index : Nat, code[index]? ≠ some (.label name)) →
        p.findLabel name = .error (.unknownLabel name)) ∧
      p.labels.length = code.toList.countP (fun i => i.defines?.isSome) ∧
      ∃ table, enterLabels ∅ code.toList.zipIdx = .ok table ∧ table.size = p.labels.length ∧
        ∀ name, table[name]? = p.label? name) ∧
    (∀ d, assemble code spans fit = .error d ↔
      ∃ index name, FirstRedefined code.toList index name ∧
        d = ⟨.parse, "Label '" ++ name ++ "' already defined", spans[index]?⟩) ∧
    ∀ index name, FirstRedefined code.toList index name →
      enterLabels ∅ code.toList.zipIdx = .error (name, index) ∧
      (spans[index]? = none ↔ spans.size = 0) := by
  refine ⟨assemble_isOk_iff, ?_, fun d => assemble_eq_error_iff, ?_⟩
  · intro p hp
    obtain ⟨rfl, rfl⟩ := of_assemble hp
    refine ⟨rfl, rfl, ?_, ?_, p.length_labels, p.enterLabels_eq⟩
    · intro name index
      rw [findLabel_eq_ok_iff, label?_eq_some_iff]
      rfl
    · intro name hnone
      refine findLabel_eq_error_iff.2 ⟨?_, rfl⟩
      rw [label?_eq_none_iff, Array.mem_iff_getElem?]
      rintro ⟨index, hindex⟩
      exact hnone index hindex
  · intro index name hfirst
    refine ⟨enterLabels_eq_error_iff.2 (repeated?_labelTable_iff.2 hfirst), ?_⟩
    have hindex : index < code.size := by
      have hlabel := hfirst.1.1
      rw [Array.getElem?_toList] at hlabel
      exact (Array.getElem?_eq_some_iff.1 hlabel).1
    rw [Array.getElem?_eq_none_iff]
    omega

/-- A label that stands there again is refused at its second place -/
theorem assemble_exact_again :
    assemble #[.label "f", .ret, .label "f"] #[⟨0, 2⟩, ⟨3, 6⟩, ⟨7, 9⟩] (.inr rfl) =
      .error ⟨.parse, "Label 'f' already defined", some ⟨7, 9⟩⟩ := by
  refine ((assemble_exact _ _ _).2.2.1 _).2 ⟨2, "f", ⟨⟨rfl, 0, by decide, rfl⟩, ?_⟩, rfl⟩
  rintro k hk other ⟨hlabel, j, hj, _⟩
  obtain rfl : k = 1 := by omega
  cases hlabel

end Program

end RegisterMachine
