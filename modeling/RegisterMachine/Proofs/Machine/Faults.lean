import RegisterMachine.Proofs.Except
import RegisterMachine.Proofs.Machine.Operations
import RegisterMachine.Proofs.Machine.Turn

/-!
# `RegisterMachine.Proofs.Machine.Faults` — the kinds of fault a running program can have

An instruction reads registers, computes, looks up labels and return addresses,
and renders templates.  Each of these has one or two kinds of fault, and none of
them is the parser's, the step limit's or the file's.

    what is done                 kinds of fault
    read, interpolate            uninitializedRegister
    evaluate                     the same, divisionByZero and overflow
    jump, call                   unknownLabel
    return                       emptyCallStack
-/

namespace RegisterMachine

/-- The kinds of fault that executing an instruction can have -/
def Diagnostic.Kind.ofExecution : Diagnostic.Kind → Bool
  | .unknownLabel | .uninitializedRegister | .emptyCallStack | .divisionByZero | .overflow => true
  | .parse | .stepLimitExceeded | .io => false

variable {V : Type} [Cell V] {p : Program} {c : Cause}

theorem Registers.kind_of_fetch {r : Registers V} {name : String} (h : r.fetch name = .error c) :
    c.kind = .uninitializedRegister := by
  obtain ⟨_, rfl⟩ := Registers.fetch_eq_error_iff.1 h
  rfl

namespace Template

theorem fetch_of_render {r : Registers V} {part : Part} (h : part.render r = .error c) :
    ∃ name, part = .register name ∧ r.fetch name = .error c := by
  cases part with
  | text content => cases h
  | register name =>
    refine ⟨name, rfl, ?_⟩
    cases hf : r.fetch name with
    | ok v => rw [Part.render, hf] at h; cases h
    | error d =>
      rw [Part.render, hf] at h
      cases h
      rfl

theorem interpolate_eq_error_iff {r : Registers V} {template : String} :
    interpolate template r = .error c ↔ (parts template).mapM (Part.render r) = .error c := by
  rw [interpolate]
  cases (parts template).mapM (Part.render r) with
  | ok texts =>
    constructor
    · intro h
      cases h
    · intro h
      cases h
  | error d =>
    show Except.error d = _ ↔ Except.error d = _
    rw [Except.error.injEq, Except.error.injEq]

/-- A template fails by reading a register that it names -/
theorem fetch_of_interpolate {r : Registers V} {template : String}
    (h : interpolate template r = .error c) :
    ∃ name, .register name ∈ parts template ∧ r.fetch name = .error c := by
  obtain ⟨before, part, after, hsplit, _, hpart⟩ :=
    Except.mapM_eq_error_iff.1 (interpolate_eq_error_iff.1 h)
  obtain ⟨name, rfl, hfetch⟩ := fetch_of_render hpart
  exact ⟨name, hsplit ▸ List.mem_append_right before List.mem_cons_self, hfetch⟩

/-- A template that names a register which does not exist fails -/
theorem interpolate_of_get?_none {r : Registers V} {template name : String}
    (hname : .register name ∈ parts template) (hnone : r.get? name = none) :
    ∃ c, interpolate template r = .error c := by
  have hfetch := Registers.fetch_eq_error_iff.2 ⟨hnone, rfl⟩
  have hrender : Part.render r (.register name) = .error (.uninitialized name r.contents) := by
    rw [Part.render, hfetch]
    rfl
  obtain ⟨c, hc⟩ := Except.mapM_ne_ok_of_mem hname hrender
  exact ⟨c, interpolate_eq_error_iff.2 hc⟩

/-- The first fault among the parts of a template is a fault of one of them -/
theorem kind_of_interpolate {r : Registers V} {template : String}
    (h : interpolate template r = .error c) : c.kind = .uninitializedRegister := by
  obtain ⟨_, _, hfetch⟩ := fetch_of_interpolate h
  exact Registers.kind_of_fetch hfetch

end Template

namespace Machine

theorem kind_of_read {r : Registers V} {o : Operand} (h : read r o = .error c) :
    c.kind = .uninitializedRegister := by
  cases o with
  | literal value => cases h
  | register name => exact Registers.kind_of_fetch h

/-- A fault of an operation is one of a read, a division by zero or an overflow -/
theorem kind_of_evaluate {r : Registers V} {target : String} {operation : Operation}
    (h : evaluate r target operation = .error c) :
    c.kind = .uninitializedRegister ∨ c.kind = .divisionByZero ∨ c.kind = .overflow := by
  rcases fault_of_evaluate h with ⟨_, hf⟩ | rfl | ⟨_, rfl⟩
  · exact .inl (Registers.kind_of_fetch hf)
  · exact .inr (.inl rfl)
  · exact .inr (.inr rfl)

/-- A fault of an instruction is of a kind that executions have -/
theorem kind_of_fault {s : State V} {i : Instruction} (h : Fault p s i c) :
    c.kind.ofExecution = true := by
  cases h with
  | operate hv => rcases kind_of_evaluate hv with hk | hk | hk <;> rw [hk] <;> rfl
  | compareLeft hl => rw [kind_of_read hl]; rfl
  | compareRight _ hr => rw [kind_of_read hr]; rfl
  | jump | call | ret => rfl
  | message ht => rw [Template.kind_of_interpolate ht]; rfl

/-- An instruction that fails for want of a register has read one that does not exist -/
theorem fetch_of_fault {s : State V} {i : Instruction} (h : Fault p s i c)
    (hc : c.kind = .uninitializedRegister) : ∃ name, s.registers.fetch name = .error c := by
  cases h with
  | operate hv =>
    rcases fault_of_evaluate hv with hfetch | rfl | ⟨_, rfl⟩
    · exact hfetch
    · cases hc
    · cases hc
  | compareLeft hl => exact fetch_of_read hl
  | compareRight _ hr => exact fetch_of_read hr
  | jump | call | ret => cases hc
  | message ht =>
    obtain ⟨name, _, hfetch⟩ := Template.fetch_of_interpolate ht
    exact ⟨name, hfetch⟩

theorem kind_of_dispatch {s : State V} {i : Instruction} {d : Diagnostic}
    (h : dispatch p s i = .error d) : d.kind.ofExecution = true := by
  obtain ⟨c, hc, rfl⟩ := dispatch_eq_error_iff.1 h
  exact kind_of_fault hc

end Machine

end RegisterMachine
