import RegisterMachine.Machine.Run
import RegisterMachine.Proofs.Program.Labels

/-!
# `RegisterMachine.Proofs.Machine.Turn` — what one turn of a run can do

A turn looks at the instruction of an index, and unless the run ends there it
executes it.  Both are functions with many cases; here they are relations, with
a rule for each thing that can happen:

    Effect p s i s'   `i` succeeds in `s` and leaves `s'` behind
    Fault p s i c     `i` fails in `s` because of `c`

The two are all that executing does (`exec_eq_done_iff`, `exec_eq_failed_iff`),
and an instruction that fails leaves the state as it was.  A turn adds a small
change of the state before the instruction and one behind it:

    begun     the turn is counted, and the next line is where to go
    settled   the machine has gone there

What holds along runs is proved from these rules, case by case.
-/

namespace RegisterMachine

variable {V : Type}

namespace State

/-- The state in which a turn executes its instruction -/
def begun (s : State V) : State V :=
  { s with next := s.ip + 1, steps := s.steps + 1 }

/-- The state after a turn whose instruction has succeeded -/
def settled (s : State V) : State V :=
  { s with ip := s.next }

end State

namespace Machine

variable [Cell V] {p : Program} {s s' : State V} {i : Instruction} {c : Cause}

/-! ## The head of a turn -/

omit [Cell V] in
theorem head_eq_pending_iff : head p s = .pending i ↔ p.get? s.ip = some i ∧ i ≠ .halt := by
  unfold head
  split
  · rename_i h; simp [h]
  · rename_i h; simp [h, eq_comm]
  · rename_i j hj h
    rw [h, Head.pending.injEq, Option.some.injEq]
    constructor
    · intro hji
      exact ⟨hji, hji ▸ hj⟩
    · exact And.left

omit [Cell V] in
/-- A run ends behind the code or at an `end`, and the one is told from the other by the result -/
theorem head_eq_finished_iff {o : Outcome V} : head p s = .finished o ↔
    (p.get? s.ip = none ∧ o = { s.outcome with value := .outOfBounds }) ∨
      (p.get? s.ip = some .halt ∧ o = s.outcome) := by
  unfold head
  split
  · rename_i h; simp [h, eq_comm, State.outcome]
  · rename_i h; simp [h, eq_comm]
  · rename_i j hj h
    have hj : j ≠ .halt := hj
    simp [h, hj]

/-! ## Instructions that succeed -/

/-- What an instruction does to a state if it succeeds -/
inductive Effect (p : Program) (s : State V) : Instruction → State V → Prop
  | comment : Effect p s .comment s
  | label {name : String} : Effect p s (.label name) s
  | halt : Effect p s .halt s
  | operate {operation : Operation} {target : String} {v : V} :
      evaluate s.registers target operation = .ok v →
      Effect p s (.operate operation target) { s with registers := s.registers.insert target v }
  | compare {left right : Operand} {l r : V} :
      read s.registers left = .ok l → read s.registers right = .ok r →
      Effect p s (.compare left right)
        { s with flag := some (Ord.compare (Cell.toInt l) (Cell.toInt r)) }
  | pass {condition : Condition} {target : String} :
      condition.holds s.flag = false → Effect p s (.jump condition target) s
  | jump {condition : Condition} {target : String} {index : Nat} :
      condition.holds s.flag = true → p.label? target = some index →
      Effect p s (.jump condition target) { s with next := index + 1 }
  | call {target : String} {index : Nat} :
      p.label? target = some index →
      Effect p s (.call target)
        { s with next := index + 1, callStack := (s.ip + 1) :: s.callStack }
  | ret {address : Nat} {rest : List Nat} :
      s.callStack = address :: rest →
      Effect p s .ret { s with next := address, callStack := rest }
  | message {template text : String} :
      Template.interpolate template s.registers = .ok text →
      Effect p s (.message template)
        { s with output := s.output.push text, result := .text text }

theorem effect_of_exec (h : exec p s i = .done s') : Effect p s i s' := by
  cases i with
  | comment => cases h; exact .comment
  | label name => cases h; exact .label
  | halt => cases h; exact .halt
  | operate operation target =>
    rw [exec] at h
    split at h
    · rename_i hv; cases h; exact .operate hv
    · cases h
  | compare left right =>
    rw [exec] at h
    split at h
    · rename_i hl hr; cases h; exact .compare hl hr
    · cases h
    · cases h
  | jump condition target =>
    rw [exec] at h
    split at h
    · rename_i hc
      split at h
      · rename_i hl; cases h; exact .jump hc (Program.findLabel_eq_ok_iff.1 hl)
      · cases h
    · rename_i hc
      cases h
      exact .pass (Bool.eq_false_iff.2 hc)
  | call target =>
    rw [exec] at h
    split at h
    · rename_i hl; cases h; exact .call (Program.findLabel_eq_ok_iff.1 hl)
    · cases h
  | ret =>
    rw [exec] at h
    split at h
    · rename_i hs; cases h; exact .ret hs
    · cases h
  | message template =>
    rw [exec] at h
    split at h
    · rename_i ht; cases h; exact .message ht
    · cases h

theorem exec_of_effect (h : Effect p s i s') : exec p s i = .done s' := by
  cases h with
  | comment | label | halt => rfl
  | operate hv => simp only [exec, hv]
  | compare hl hr => simp only [exec, hl, hr]
  | pass hc => simp only [exec, hc, Bool.false_eq_true, if_false]
  | jump hc hl => simp only [exec, hc, if_true, Program.findLabel_eq_ok_iff.2 hl]
  | call hl => simp only [exec, Program.findLabel_eq_ok_iff.2 hl]
  | ret hs => simp only [exec, hs]
  | message ht => simp only [exec, ht]

/-- An instruction succeeds exactly by one of its effects -/
theorem exec_eq_done_iff : exec p s i = .done s' ↔ Effect p s i s' :=
  ⟨effect_of_exec, exec_of_effect⟩

/-! ## Instructions that fail -/

/-- Why an instruction fails in a state if it does -/
inductive Fault (p : Program) (s : State V) : Instruction → Cause → Prop
  | operate {operation : Operation} {target : String} {c : Cause} :
      evaluate s.registers target operation = .error c → Fault p s (.operate operation target) c
  | compareLeft {left right : Operand} {c : Cause} :
      read s.registers left = .error c → Fault p s (.compare left right) c
  | compareRight {left right : Operand} {l : V} {c : Cause} :
      read s.registers left = .ok l → read s.registers right = .error c →
      Fault p s (.compare left right) c
  | jump {condition : Condition} {target : String} :
      condition.holds s.flag = true → p.label? target = none →
      Fault p s (.jump condition target) (.unknownLabel target)
  | call {target : String} :
      p.label? target = none → Fault p s (.call target) (.unknownLabel target)
  | ret : s.callStack = [] → Fault p s .ret .emptyCallStack
  | message {template : String} {c : Cause} :
      Template.interpolate template s.registers = .error c → Fault p s (.message template) c

theorem fault_of_exec (h : exec p s i = .failed c s') : Fault p s i c ∧ s' = s := by
  cases i with
  | comment | label | halt => cases h
  | operate operation target =>
    rw [exec] at h
    split at h
    · cases h
    · rename_i hv; cases h; exact ⟨.operate hv, rfl⟩
  | compare left right =>
    rw [exec] at h
    split at h
    · cases h
    · rename_i hl; cases h; exact ⟨.compareLeft hl, rfl⟩
    · rename_i hl hr; cases h; exact ⟨.compareRight hl hr, rfl⟩
  | jump condition target =>
    rw [exec] at h
    split at h
    · rename_i hc
      split at h
      · cases h
      · rename_i hl
        cases h
        obtain ⟨hnone, rfl⟩ := Program.findLabel_eq_error_iff.1 hl
        exact ⟨.jump hc hnone, rfl⟩
    · cases h
  | call target =>
    rw [exec] at h
    split at h
    · cases h
    · rename_i hl
      cases h
      obtain ⟨hnone, rfl⟩ := Program.findLabel_eq_error_iff.1 hl
      exact ⟨.call hnone, rfl⟩
  | ret =>
    rw [exec] at h
    split at h
    · cases h
    · rename_i hs; cases h; exact ⟨.ret hs, rfl⟩
  | message template =>
    rw [exec] at h
    split at h
    · cases h
    · rename_i ht; cases h; exact ⟨.message ht, rfl⟩

theorem exec_of_fault (h : Fault p s i c) : exec p s i = .failed c s := by
  cases h with
  | operate hv => simp only [exec, hv]
  | compareLeft hl => simp only [exec, hl]
  | compareRight hl hr => simp only [exec, hl, hr]
  | jump hc hl => simp only [exec, hc, if_true, Program.findLabel_eq_error_iff.2 ⟨hl, rfl⟩]
  | call hl => simp only [exec, Program.findLabel_eq_error_iff.2 ⟨hl, rfl⟩]
  | ret hs => simp only [exec, hs]
  | message ht => simp only [exec, ht]

/-- An instruction fails exactly by one of its faults, and leaves the state as it was -/
theorem exec_eq_failed_iff : exec p s i = .failed c s' ↔ Fault p s i c ∧ s' = s := by
  constructor
  · exact fault_of_exec
  · intro h
    obtain ⟨hf, rfl⟩ := h
    exact exec_of_fault hf

/-! ## Turns -/

theorem dispatch_eq : dispatch p s i =
    match exec p s.begun i with
    | .done t => .ok t.settled
    | .failed c t => .error (c.diagnostic (p.span? t.ip)) := rfl

/-- A turn succeeds by an effect of its instruction -/
theorem dispatch_eq_ok_iff :
    dispatch p s i = .ok s' ↔ ∃ t, Effect p s.begun i t ∧ s' = t.settled := by
  rw [dispatch_eq]
  constructor
  · intro h
    split at h
    · rename_i t ht
      cases h
      exact ⟨t, exec_eq_done_iff.1 ht, rfl⟩
    · cases h
  · intro h
    obtain ⟨t, ht, rfl⟩ := h
    rw [exec_eq_done_iff.2 ht]

/-- A turn fails by a fault of its instruction, and is reported at the place of it -/
theorem dispatch_eq_error_iff {d : Diagnostic} :
    dispatch p s i = .error d ↔ ∃ c, Fault p s.begun i c ∧ d = c.diagnostic (p.span? s.ip) := by
  rw [dispatch_eq]
  constructor
  · intro h
    split at h
    · cases h
    · rename_i c t ht
      cases h
      obtain ⟨hc, rfl⟩ := exec_eq_failed_iff.1 ht
      exact ⟨c, hc, rfl⟩
  · intro h
    obtain ⟨c, hc, rfl⟩ := h
    rw [exec_eq_failed_iff.2 ⟨hc, rfl⟩]
    rfl

end Machine

end RegisterMachine
