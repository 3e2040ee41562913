import RegisterMachine.Source

/-!
# `RegisterMachine.Program` — instructions with their label table

A program is a sequence of instructions.  It knows where each of them stands in
the source if it was read from one, and where each label is.  Three facts are
part of the type:

* there is a span for every instruction or for none;
* the label table is what the instructions say (`labelTable`);
* no label stands twice.

`assemble` builds a program from its instructions, and fails only if a label is
defined again, at the first instruction that does so.  `parse` reads a source:
the first line that says nothing is reported before any label is looked at.
-/

namespace RegisterMachine

/-! ## Label tables -/

/-- The labels among instructions, each with its index -/
def labelTable (code : List Instruction) : List (String × Nat) :=
  code.zipIdx.filterMap fun
    | (.label name, index) => some (name, index)
    | _ => none

/-- The first entry whose name an earlier one has, or one of the names already seen -/
def repeated? (seen : List String) : List (String × Nat) → Option (String × Nat)
  | [] => none
  | e :: es => if e.1 ∈ seen then some e else repeated? (e.1 :: seen) es

/-- Nothing is repeated exactly where the names are new and different -/
theorem repeated?_eq_none_iff {seen : List String} {es : List (String × Nat)} :
    repeated? seen es = none ↔ (∀ e ∈ es, e.1 ∉ seen) ∧ (es.map Prod.fst).Nodup := by
  induction es generalizing seen with
  | nil => simp [repeated?]
  | cons e es ih =>
    rw [repeated?]
    by_cases he : e.1 ∈ seen
    · simp [he]
    · simp only [he, if_false, ih, List.mem_cons, not_or, List.map_cons, List.nodup_cons,
        List.mem_map, not_exists, not_and]
      constructor
      · rintro ⟨h, hn⟩
        exact ⟨fun f hf => hf.elim (fun hf => hf ▸ he) fun hf => (h f hf).2,
          fun f hf => (h f hf).1, hn⟩
      · rintro ⟨h, hne, hn⟩
        exact ⟨fun f hf => ⟨hne f hf, h f (.inr hf)⟩, hn⟩

/-! ## Programs -/

/-- Instructions, where they stand if that is known, and their labels -/
structure Program where
  code : Array Instruction
  spans : Array Span
  labels : List (String × Nat)
  spans_fit : spans.size = 0 ∨ spans.size = code.size
  labels_eq : labels = labelTable code.toList
  labels_nodup : (labels.map Prod.fst).Nodup

namespace Program

/-- The number of instructions -/
def size (p : Program) : Nat :=
  p.code.size

/-- The instruction of an index -/
def get? (p : Program) (index : Nat) : Option Instruction :=
  p.code[index]?

/-- Where the instruction of an index stands -/
def span? (p : Program) (index : Nat) : Option Span :=
  p.spans[index]?

/-- The index of a label -/
def label? (p : Program) (name : String) : Option Nat :=
  p.labels.lookup name

/-- The index of a label, or the complaint that there is none of this name -/
def findLabel (p : Program) (name : String) : Except Cause Nat :=
  match p.label? name with
  | some index => .ok index
  | none => .error (.unknownLabel name)

/-- The program of these instructions, unless a label stands twice -/
def assemble (code : Array Instruction) (spans : Array Span)
    (fit : spans.size = 0 ∨ spans.size = code.size) : Except Diagnostic Program :=
  match h : repeated? [] (labelTable code.toList) with
  | some (name, index) => .error ((Cause.labelRedefined name).diagnostic spans[index]?)
  | none => .ok
    { code, spans, labels := labelTable code.toList, spans_fit := fit, labels_eq := rfl,
      labels_nodup := (repeated?_eq_none_iff.1 h).2 }

/-- The program of instructions that stand at known places -/
def ofItems (items : List (Instruction × Span)) : Except Diagnostic Program :=
  assemble (items.map Prod.fst).toArray (items.map Prod.snd).toArray (.inr (by simp))

/-- The program that a source says -/
def parse (source : String) : Except Diagnostic Program := do
  let items ← (Source.items source).mapM id
  ofItems items

end Program

end RegisterMachine
