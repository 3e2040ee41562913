import RegisterMachine.Proofs.Line.RoundTrip
import RegisterMachine.Proofs.Machine.Faults
import RegisterMachine.Proofs.Machine.Trace
import RegisterMachine.Proofs.Program.Items
import RegisterMachine.Proofs.Registers.Entries

/-!
# `RegisterMachine.Proofs.Machine.Writes` — which registers there are, and what they hold

Every operation ends in a write, and a write makes the register if there is none.  But all
operations except a move have read their target before, and a read of a register that does
not exist fails.  So:

    turn                    registers that exist         what they hold
    move to a register      that one too                 its operand, in that register
    any other operation     the same, the target too     its result, in the target
    all others              the same                     the same

Along a run from its start the registers are those that some move has written
(`Trace.mem_names_iff`), and each holds what the latest operation on it has made
(`Trace.get?_eq_some_iff`).  A program that was read from a source has identifiers as
targets, so nothing else ever becomes the name of a register; a template may name
anything.
-/

namespace RegisterMachine

/-! ## Targets of instructions -/

/-- The register that an instruction operates on, if it is an operation -/
def Instruction.written? : Instruction → Option String
  | .operate _ target => some target
  | _ => none

/-- The register that an instruction moves a number to, if it is a move -/
def Instruction.moved? : Instruction → Option String
  | .operate (.binary .mov _) target => some target
  | _ => none

theorem Instruction.written_of_moved {i : Instruction} {name : String}
    (h : i.moved? = some name) : i.written? = some name := by
  unfold moved? at h
  split at h
  · exact h
  · cases h

theorem Instruction.mem_names_of_moved {i : Instruction} {name : String}
    (h : i.moved? = some name) : name ∈ i.names := by
  unfold moved? at h
  split at h
  · cases h
    exact List.mem_cons_self
  · cases h

namespace Machine

variable {V : Type} [Cell V] {p : Program} {s t : State V} {i : Instruction} {name : String} {v : V}

/-- The turn has written the number to the register: it is what the operation made in its state -/
def Turn.Writes (turn : Turn V) (name : String) (v : V) : Prop :=
  ∃ operation, turn.instruction = .operate operation name ∧
    evaluate turn.state.registers name operation = .ok v

/-! ## One turn -/

/-- An operation that is no move has read its target -/
theorem mem_names_of_evaluate {r : Registers V} {target : String} {operation : Operation}
    (h : evaluate r target operation = .ok v) :
    target ∈ r.names ∨ ∃ source, operation = .binary .mov source := by
  have hread : ∀ {f : V → Except Cause V}, r.fetch target >>= f = .ok v → target ∈ r.names := by
    intro f hf
    obtain ⟨old, hold, _⟩ := Except.bind_eq_ok_iff.1 hf
    rw [Registers.mem_names_iff, Registers.fetch_eq_ok_iff.1 hold]
    exact nofun
  match operation with
  | .unary op =>
    rw [evaluate_unary] at h
    exact .inl (hread h)
  | .binary op source =>
    by_cases hop : op = .mov
    · exact .inr ⟨source, hop ▸ rfl⟩
    · rw [evaluate_binary hop] at h
      obtain ⟨operand, _, h⟩ := Except.bind_eq_ok_iff.1 h
      split at h
      · cases h
      · exact .inl (hread h)

/-- What a turn does to the registers -/
theorem registers_of_dispatch (h : dispatch p s i = .ok t) :
    (∃ operation target v, i = .operate operation target ∧
      evaluate s.registers target operation = .ok v ∧
      t.registers = s.registers.insert target v) ∨
    (i.written? = none ∧ t.registers = s.registers) := by
  obtain ⟨u, hu, rfl⟩ := dispatch_eq_ok_iff.1 h
  cases hu with
  | operate hv => exact .inl ⟨_, _, _, rfl, hv, rfl⟩
  | comment | label | halt | compare | pass | jump | call | ret | message => exact .inr ⟨rfl, rfl⟩

/-- A turn makes no register but the one it moves a number to, and takes none away -/
theorem mem_names_of_dispatch (h : dispatch p s i = .ok t) :
    name ∈ t.registers.names ↔ name ∈ s.registers.names ∨ i.moved? = some name := by
  rcases registers_of_dispatch h with ⟨operation, target, v, rfl, hv, hwrite⟩ | ⟨hnone, hsame⟩
  · rw [hwrite, Registers.mem_names_insert]
    constructor
    · rintro (rfl | hname)
      · rcases mem_names_of_evaluate hv with htarget | ⟨source, rfl⟩
        · exact .inl htarget
        · exact .inr rfl
      · exact .inl hname
    · rintro (hname | hmoved)
      · exact .inr hname
      · exact .inl (Option.some.inj (Instruction.written_of_moved hmoved)).symm
  · rw [hsame]
    constructor
    · exact .inl
    · rintro (hname | hmoved)
      · exact hname
      · rw [Instruction.written_of_moved hmoved] at hnone
        cases hnone

/-- A turn leaves all registers alone but the one it operates on -/
theorem get?_of_dispatch_of_ne (h : dispatch p s i = .ok t) (hi : i.written? ≠ some name) :
    t.registers.get? name = s.registers.get? name := by
  rcases registers_of_dispatch h with ⟨_, target, v, rfl, _, hwrite⟩ | ⟨_, hsame⟩
  · have hname : name ≠ target := fun heq => hi (congrArg some heq.symm)
    rw [hwrite, Registers.get?_insert, if_neg hname]
  · rw [hsame]

/-- A register holds what a turn has written to it, and otherwise what it held before -/
theorem get?_eq_some_iff_of_dispatch (h : dispatch p s i = .ok t) :
    t.registers.get? name = some v ↔
      i.written? = some name ∧ Turn.Writes ⟨s, i⟩ name v ∨
        i.written? ≠ some name ∧ s.registers.get? name = some v := by
  by_cases hi : i.written? = some name
  · rcases registers_of_dispatch h with ⟨operation, target, w, rfl, hw, hwrite⟩ | ⟨hnone, _⟩
    · obtain rfl : target = name := Option.some.inj hi
      rw [hwrite, Registers.get?_insert, if_pos rfl]
      constructor
      · intro hv
        cases hv
        exact .inl ⟨hi, operation, rfl, hw⟩
      · rintro (⟨_, _, hinstruction, hv⟩ | ⟨hother, _⟩)
        · cases hinstruction
          rw [hv] at hw
          rw [Except.ok.inj hw]
        · exact absurd hi hother
    · rw [hnone] at hi
      cases hi
  · rw [get?_of_dispatch_of_ne h hi]
    constructor
    · intro hv
      exact .inr ⟨hi, hv⟩
    · rintro (⟨hwritten, _⟩ | ⟨_, hv⟩)
      · exact absurd hwritten hi
      · exact hv

/-! ## Runs -/

/-- The registers are those that were there at the start and those that a move has written -/
theorem Trace.mem_names_iff {turns : List (Turn V)} (h : Trace p s turns t) :
    name ∈ t.registers.names ↔
      name ∈ s.registers.names ∨ ∃ turn ∈ turns, turn.instruction.moved? = some name := by
  induction h with
  | start => simp
  | turn _ _ hd ih =>
    rw [mem_names_of_dispatch hd, ih, or_assoc]
    simp only [List.mem_append, List.mem_singleton, or_and_right, exists_or, exists_eq_left]

/-- A register holds what the latest operation on it has made -/
theorem Trace.get?_eq_some_iff {turns : List (Turn V)} (h : Trace p .initial turns t) :
    t.registers.get? name = some v ↔
      ∃ turn, Latest (fun turn => turn.instruction.written? = some name) turns turn ∧
        turn.Writes name v := by
  induction h with
  | start => exact ⟨nofun, fun ⟨_, hturn, _⟩ => absurd hturn not_latest_nil⟩
  | turn _ _ hd ih =>
    rw [get?_eq_some_iff_of_dispatch hd, ih]
    constructor
    · rintro (⟨hi, hwrites⟩ | ⟨hi, turn, hturn, hwrites⟩)
      · exact ⟨_, latest_concat_iff.2 (.inl ⟨hi, rfl⟩), hwrites⟩
      · exact ⟨turn, latest_concat_iff.2 (.inr ⟨hi, hturn⟩), hwrites⟩
    · rintro ⟨turn, hturn, hwrites⟩
      rcases latest_concat_iff.1 hturn with ⟨hi, rfl⟩ | ⟨hi, hturn⟩
      · exact .inl ⟨hi, hwrites⟩
      · exact .inr ⟨hi, turn, hturn, hwrites⟩

/-- The registers that exist after a run from the start are those that a move has written -/
theorem Trace.mem_names_initial_iff {turns : List (Turn V)} (h : Trace p .initial turns t) :
    name ∈ t.registers.names ↔ ∃ turn ∈ turns, turn.instruction.moved? = some name := by
  rw [h.mem_names_iff]
  exact or_iff_right List.not_mem_nil

/-- In a program that was read from a source, the name of a register is an identifier -/
theorem Trace.identifier_of_mem_names {source : String} (hp : Program.parse source = .ok p)
    {turns : List (Turn V)} (h : Trace p .initial turns t) (hname : name ∈ t.registers.names) :
    Identifier name := by
  obtain ⟨turn, hturn, hmoved⟩ := h.mem_names_initial_iff.1 hname
  have hcode : turn.instruction ∈ p.code.toList :=
    Array.mem_def.1 (Array.mem_of_getElem? (h.get?_of_mem hturn))
  obtain ⟨l, _, hl⟩ := Program.line_of_mem hp hcode
  exact (Line.writable_of_parse hl).identifiers name (Instruction.mem_names_of_moved hmoved)

/-- A message fails if its template names a register that does not exist -/
theorem dispatch_message_of_not_mem_names {template : String}
    (hname : .register name ∈ Template.parts template) (hnone : name ∉ s.registers.names) :
    ∃ d, dispatch p s (.message template) = .error d ∧ d.kind = .uninitializedRegister := by
  have hget : s.begun.registers.get? name = none := Registers.not_mem_names_iff.1 hnone
  obtain ⟨c, hc⟩ := Template.interpolate_of_get?_none hname hget
  exact ⟨_, dispatch_eq_error_iff.2 ⟨c, .message hc, rfl⟩, Template.kind_of_interpolate hc⟩

end Machine

open Machine

/-- A register exists exactly from the first move to it on.  At the start of every turn the names
of the registers are the targets of the moves executed so far, and each register holds what the
latest operation on it has made in the state of its turn; whatever is executed then and fails for
want of a register has read one that no move has written.  In any state a turn takes no register
away, and makes none but the one it moves a number to.  And where the program was read from a
source, the name of every register is an identifier, so that a message which names anything else
always fails -/
theorem Program.registers_exact (p : Program) :
    (∀ {s : State Word} {turns : List (Turn Word)}, Trace p .initial turns s →
      (∀ name, name ∈ s.registers.names ↔
        ∃ turn ∈ turns, turn.instruction.moved? = some name) ∧
      (∀ name v, s.registers.get? name = some v ↔
        ∃ turn, Latest (fun turn => turn.instruction.written? = some name) turns turn ∧
          turn.Writes name v) ∧
      ∀ i d, dispatch p s i = .error d → d.kind = .uninitializedRegister →
        ∃ name, d = (Cause.uninitialized name s.registers.contents).diagnostic (p.span? s.ip) ∧
          ∀ turn ∈ turns, turn.instruction.moved? ≠ some name) ∧
    (∀ {s t : State Word} {i : Instruction}, dispatch p s i = .ok t → ∀ name,
      name ∈ t.registers.names ↔ name ∈ s.registers.names ∨ i.moved? = some name) ∧
    (∀ source, Program.parse source = .ok p →
      ∀ {s : State Word} {turns : List (Turn Word)}, Trace p .initial turns s →
        (∀ name ∈ s.registers.names, Identifier name) ∧
        ∀ template name, .register name ∈ Template.parts template → ¬ Identifier name →
          ∃ d, dispatch p s (.message template) = .error d ∧
            d.kind = .uninitializedRegister) := by
  refine ⟨?_, ?_, ?_⟩
  · intro s turns h
    refine ⟨fun name => h.mem_names_initial_iff, fun name v => h.get?_eq_some_iff, ?_⟩
    intro i d hd hkind
    obtain ⟨c, hfault, rfl⟩ := dispatch_eq_error_iff.1 hd
    obtain ⟨name, hfetch⟩ := fetch_of_fault hfault hkind
    obtain ⟨hnone, rfl⟩ := Registers.fetch_eq_error_iff.1 hfetch
    refine ⟨name, rfl, ?_⟩
    intro turn hturn hmoved
    have hmem := h.mem_names_initial_iff.2 ⟨turn, hturn, hmoved⟩
    exact Registers.mem_names_iff.1 hmem hnone
  · intro s t i h name
    exact mem_names_of_dispatch h
  · intro source hp s turns h
    constructor
    · intro name hname
      exact h.identifier_of_mem_names hp hname
    · intro template name hname hother
      apply dispatch_message_of_not_mem_names hname
      intro hmem
      exact hother (h.identifier_of_mem_names hp hmem)

end RegisterMachine
