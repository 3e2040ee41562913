import RegisterMachine.Machine.Exec

/-!
# `RegisterMachine.Proofs.Machine.Atomicity` — an instruction that fails has done nothing

`exec` says what an instruction comes to as a whole.  Here an instruction is a sequence of small
acts, one read or one change at a time, in which a change that has been made stays made when a
later act fails (`perform`).  The two are the same (`exec_eq_perform`), and an instruction that
fails leaves the state as it was because of the order of its acts:

    instruction   reads, which may fail    may fail, or else changes    changes
    operation     source, target                                        the target register
    comparison    both numbers                                          the flag
    jump          flag, label                                           the next line
    call          label                                                 the stack, the next line
    return                                 the stack                    the next line
    message       the template's registers                              output, result

There is nothing to undo if what can fail changes nothing before (`Reads.bind`), and if nothing that
comes after the first change can fail (`Atomic.bind`).
-/

namespace RegisterMachine.Machine

variable {V : Type} {α β : Type}

/-! ## Acts -/

/-- A computation on the state that keeps its changes when it fails -/
abbrev Act (V α : Type) :=
  EStateM Cause (State V) α

namespace Act

/-- Reads the state, and may complain of what it finds there -/
def ask (f : State V → Except Cause α) : Act V α := fun s =>
  match f s with
  | .ok a => .ok a s
  | .error c => .error c s

/-- Takes the latest return address off the stack -/
def pop : Act V Nat := fun s =>
  match s.callStack with
  | address :: rest => .ok address { s with callStack := rest }
  | [] => .error .emptyCallStack s

/-- The act leaves the state as it was if it fails -/
def Atomic (a : Act V α) : Prop :=
  ∀ ⦃s : State V⦄ ⦃c : Cause⦄ ⦃t : State V⦄, a s = .error c t → t = s

/-- The act leaves the state as it was whether it fails or not -/
def Reads (a : Act V α) : Prop :=
  a.Atomic ∧ ∀ ⦃s : State V⦄ ⦃x : α⦄ ⦃t : State V⦄, a s = .ok x t → t = s

/-- The act does not fail -/
def Total (a : Act V α) : Prop :=
  ∀ ⦃s : State V⦄ ⦃c : Cause⦄ ⦃t : State V⦄, a s ≠ .error c t

/-! ## One act -/

theorem Total.atomic {a : Act V α} (h : a.Total) : a.Atomic :=
  fun _ _ _ hs => absurd hs (@h _ _ _)

theorem total_pure (x : α) : (pure x : Act V α).Total :=
  fun _ _ _ => nofun

theorem total_modify (f : State V → State V) : (modify f : Act V Unit).Total :=
  fun _ _ _ => nofun

theorem reads_get : (get : Act V (State V)).Reads := by
  constructor
  · exact fun _ _ _ => nofun
  · intro s x t h
    cases h
    rfl

theorem reads_ask (f : State V → Except Cause α) : (ask f).Reads := by
  constructor
  · intro s c t h
    unfold ask at h
    split at h <;> cases h
    rfl
  · intro s x t h
    unfold ask at h
    split at h <;> cases h
    rfl

theorem atomic_pop : (pop : Act V Nat).Atomic := by
  intro s c t h
  unfold pop at h
  split at h <;> cases h
  rfl

/-! ## One act after another -/

variable {a : Act V α} {f : α → Act V β}

/-- A sequence fails in its first act or behind it -/
theorem failed_of_bind {s u : State V} {c : Cause} (h : (a >>= f) s = .error c u) :
    a s = .error c u ∨ ∃ x t, a s = .ok x t ∧ f x t = .error c u := by
  replace h : EStateM.bind a f s = .error c u := h
  rw [EStateM.bind] at h
  cases ha : a s with
  | ok x t =>
    rw [ha] at h
    exact .inr ⟨x, t, rfl, h⟩
  | error d t =>
    rw [ha] at h
    cases h
    exact .inl rfl

theorem ask_bind_of_ok {g : State V → Except Cause α} {s : State V} {x : α} (h : g s = .ok x) :
    (ask g >>= f) s = f x s := by
  show EStateM.bind (ask g) f s = _
  rw [EStateM.bind, ask, h]

theorem ask_bind_of_error {g : State V → Except Cause α} {s : State V} {c : Cause}
    (h : g s = .error c) : (ask g >>= f) s = .error c s := by
  show EStateM.bind (ask g) f s = _
  rw [EStateM.bind, ask, h]

/-- Nothing has changed before what comes behind a read -/
theorem Reads.bind (ha : a.Reads) (hf : ∀ x, (f x).Atomic) : (a >>= f).Atomic := by
  intro s c u h
  rcases failed_of_bind h with h | ⟨x, t, hx, h⟩
  · exact ha.1 h
  · rw [← ha.2 hx]
    exact hf x h

/-- A change does no harm if nothing behind it fails -/
theorem Atomic.bind (ha : a.Atomic) (hf : ∀ x, (f x).Total) : (a >>= f).Atomic := by
  intro s c u h
  rcases failed_of_bind h with h | ⟨x, t, _, h⟩
  · exact ha h
  · exact absurd h (@hf x _ _ _)

theorem Total.bind (ha : a.Total) (hf : ∀ x, (f x).Total) : (a >>= f).Total := by
  intro s c u h
  rcases failed_of_bind h with h | ⟨x, t, _, h⟩
  · exact ha h
  · exact hf x h

end Act

/-! ## Instructions -/

variable [Cell V]

open Act in
/-- Executes an instruction by one act after another -/
def perform (p : Program) : Instruction → Act V Unit
  | .comment | .label _ | .halt => pure ()
  | .operate operation target => do
    let v ← ask fun s => evaluate s.registers target operation
    modify fun s => { s with registers := s.registers.insert target v }
  | .compare left right => do
    let l ← ask fun s => read s.registers left
    let r ← ask fun s => read s.registers right
    modify fun s => { s with flag := some (Ord.compare (Cell.toInt l) (Cell.toInt r)) }
  | .jump condition target => do
    if condition.holds (← get).flag then
      let label ← ask fun _ => p.findLabel target
      modify fun s => { s with next := label + 1 }
  | .call target => do
    let label ← ask fun _ => p.findLabel target
    modify fun s => { s with callStack := (s.ip + 1) :: s.callStack }
    modify fun s => { s with next := label + 1 }
  | .ret => do
    let address ← pop
    modify fun s => { s with next := address }
  | .message template => do
    let text ← ask fun s => Template.interpolate template s.registers
    modify fun s => { s with output := s.output.push text }
    modify fun s => { s with result := .text text }

/-- An execution as what its acts come to -/
def Execution.ofResult : EStateM.Result Cause (State V) Unit → Execution V
  | .ok () s => .done s
  | .error c s => .failed c s

open Act in
/-- To execute an instruction is to perform its acts -/
theorem exec_eq_perform (p : Program) (s : State V) (i : Instruction) :
    exec p s i = .ofResult (perform p i s) := by
  cases i with
  | comment | label | halt => rfl
  | operate operation target =>
    cases hv : evaluate s.registers target operation with
    | ok v => rw [perform, ask_bind_of_ok hv, exec, hv]; rfl
    | error c => rw [perform, ask_bind_of_error hv, exec, hv]; rfl
  | compare left right =>
    cases hl : read s.registers left with
    | ok l =>
      cases hr : read s.registers right with
      | ok r => rw [perform, ask_bind_of_ok hl, ask_bind_of_ok hr, exec, hl, hr]; rfl
      | error c => rw [perform, ask_bind_of_ok hl, ask_bind_of_error hr, exec, hl, hr]; rfl
    | error c => rw [perform, ask_bind_of_error hl, exec, hl]; rfl
  | jump condition target =>
    show _ = Execution.ofResult ((if condition.holds s.flag then _ else _ : Act V Unit) s)
    rw [exec]
    split
    · cases p.findLabel target <;> rfl
    · rfl
  | call target =>
    cases hlabel : p.findLabel target with
    | ok label => rw [perform, ask_bind_of_ok hlabel, exec, hlabel]; rfl
    | error c => rw [perform, ask_bind_of_error hlabel, exec, hlabel]; rfl
  | ret =>
    show _ = Execution.ofResult (EStateM.bind pop _ s)
    rw [exec, EStateM.bind, pop]
    cases s.callStack <;> rfl
  | message template =>
    cases htext : Template.interpolate template s.registers with
    | ok text => rw [perform, ask_bind_of_ok htext, exec, htext]; rfl
    | error c => rw [perform, ask_bind_of_error htext, exec, htext]; rfl

open Act in
/-- The acts of an instruction come in an order that leaves nothing half done -/
theorem atomic_perform (p : Program) (i : Instruction) : (perform p i : Act V Unit).Atomic := by
  cases i with
  | comment | label | halt => exact (total_pure ()).atomic
  | operate operation target => exact (reads_ask _).bind fun _ => (total_modify _).atomic
  | compare left right =>
    exact (reads_ask _).bind fun _ => (reads_ask _).bind fun _ => (total_modify _).atomic
  | jump condition target =>
    refine reads_get.bind fun s => ?_
    show (if condition.holds s.flag then _ else _ : Act V Unit).Atomic
    -- only a jump that is taken looks for its label
    split
    · exact (reads_ask _).bind fun _ => (total_modify _).atomic
    · exact (total_pure ()).atomic
  -- a call and a message change two fields, but nothing may fail once the first is changed
  | call target =>
    exact (reads_ask _).bind fun _ => ((total_modify _).bind fun _ => total_modify _).atomic
  | ret => exact atomic_pop.bind fun _ => total_modify _
  | message template =>
    exact (reads_ask _).bind fun _ => ((total_modify _).bind fun _ => total_modify _).atomic

/-- An instruction that fails leaves the state as it was, whatever the state and wherever the
instruction comes from, and so do its acts one after another -/
theorem failed_leaves_state {p : Program} {s t : State Word} {i : Instruction} {c : Cause}
    (h : exec p s i = .failed c t) : t = s ∧ perform p i s = .error c s := by
  rw [exec_eq_perform] at h
  cases hr : perform p i s with
  | ok x u => rw [hr] at h; cases h
  | error d u =>
    rw [hr] at h
    obtain ⟨rfl, rfl⟩ := Execution.failed.inj h
    have hu : u = s := atomic_perform p i hr
    exact ⟨hu, hu ▸ rfl⟩

/-- A division by zero in a state that no run comes to -/
theorem failed_leaves_state_division :
    ∃ (p : Program) (s t : State Word), p.size = 0 ∧
      s = { ip := 7, next := 3, flag := some .lt, registers := Registers.empty.insert "a" 5,
            callStack := [4, 9], result := .outOfBounds, output := #["x"], steps := 2 } ∧
      exec p s (.operate (.binary .div (.literal 0)) "a") = .failed (.divisionByZero "a") t ∧
      t = s ∧
      perform p (.operate (.binary .div (.literal 0)) "a") s = .error (.divisionByZero "a") s := by
  let p : Program := ⟨#[], #[], [], .inl rfl, rfl, .nil⟩
  have hfails : ∀ s : State Word, exec p s (.operate (.binary .div (.literal 0)) "a") =
      .failed (.divisionByZero "a") s := fun _ => rfl
  exact ⟨p, _, _, rfl, rfl, hfails _, failed_leaves_state (hfails _)⟩

end RegisterMachine.Machine
