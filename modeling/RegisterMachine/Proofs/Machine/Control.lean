import RegisterMachine.Proofs.Machine.Faults
import RegisterMachine.Proofs.Machine.Results
import RegisterMachine.Proofs.Machine.Turn

/-!
# `RegisterMachine.Proofs.Machine.Control` — control never leaves the program

Where a turn leads is read off the instruction, the flag, the label table and the
top of the stack (`destination?`).  Three of these lead one behind an
instruction of the program, and the stack holds only what calls have put on it:

    instruction             leads to
    return                  the top of the stack, one behind a call
    jump that is taken      one behind the label
    call                    one behind the label
    all others              one behind itself

So the index of the instruction to execute is never more than the number of
instructions (`Inside`), and a run is out of bounds exactly when it is that
number.  A label that does not exist is noticed only by an instruction that
goes there.
-/

namespace RegisterMachine

namespace Machine

variable {V : Type} [Cell V] {p : Program}

/-- The instruction goes to the label of this name: a call, or a jump that is taken -/
inductive GoesTo (flag : Flag) : Instruction → String → Prop
  | jump {condition : Condition} {target : String} :
      condition.holds flag = true → GoesTo flag (.jump condition target) target
  | call {target : String} : GoesTo flag (.call target) target

/-- Where an instruction leads, if it leads anywhere -/
def destination? (p : Program) (s : State V) : Instruction → Option Nat
  | .jump condition target =>
    if condition.holds s.flag then (p.label? target).map (· + 1) else some (s.ip + 1)
  | .call target => (p.label? target).map (· + 1)
  | .ret => s.callStack.head?
  | _ => some (s.ip + 1)

/-! ## One turn -/

theorem destination_of_dispatch {s t : State V} {i : Instruction} (h : dispatch p s i = .ok t) :
    destination? p s i = some t.ip := by
  obtain ⟨u, hu, rfl⟩ := dispatch_eq_ok_iff.1 h
  cases hu with
  | comment | label | halt | operate | compare | message => rfl
  | @pass condition _ hc =>
    have hc : condition.holds s.flag = false := hc
    rw [destination?, hc]
    rfl
  | @jump condition _ _ hc hl =>
    have hc : condition.holds s.flag = true := hc
    rw [destination?, hc, hl]
    rfl
  | call hl =>
    rw [destination?, hl]
    rfl
  | ret hs =>
    rw [destination?, show s.callStack = _ from hs]
    rfl

/-- A label is missed exactly by an instruction that goes to it -/
theorem unknownLabel_iff {s : State V} {i : Instruction} :
    (∃ d, dispatch p s i = .error d ∧ d.kind = .unknownLabel) ↔
      ∃ target, GoesTo s.flag i target ∧ .label target ∉ p.code := by
  constructor
  · intro h
    obtain ⟨d, hd, hkind⟩ := h
    obtain ⟨c, hc, rfl⟩ := dispatch_eq_error_iff.1 hd
    rw [Cause.kind_diagnostic] at hkind
    cases hc with
    | operate hv =>
      rcases kind_of_evaluate hv with hk | hk | hk <;> rw [hk] at hkind <;> cases hkind
    | compareLeft hl => rw [kind_of_read hl] at hkind; cases hkind
    | compareRight _ hr => rw [kind_of_read hr] at hkind; cases hkind
    | jump hc hl => exact ⟨_, .jump hc, Program.label?_eq_none_iff.1 hl⟩
    | call hl => exact ⟨_, .call, Program.label?_eq_none_iff.1 hl⟩
    | ret _ => cases hkind
    | message ht => rw [Template.kind_of_interpolate ht] at hkind; cases hkind
  · intro h
    obtain ⟨target, hgoes, hnone⟩ := h
    have hl := Program.label?_eq_none_iff.2 hnone
    cases hgoes with
    | jump hc => exact ⟨_, dispatch_eq_error_iff.2 ⟨_, .jump hc hl, rfl⟩, rfl⟩
    | call => exact ⟨_, dispatch_eq_error_iff.2 ⟨_, .call hl, rfl⟩, rfl⟩

/-! ## Staying inside -/

/-- An index one behind a call -/
def ReturnAddress (p : Program) (address : Nat) : Prop :=
  ∃ index target, address = index + 1 ∧ p.get? index = some (.call target)

theorem ReturnAddress.le_size {address : Nat} (h : ReturnAddress p address) :
    address ≤ p.size := by
  obtain ⟨index, target, rfl, hcall⟩ := h
  exact Program.lt_size_of_get? hcall

/-- Control is in the program or right behind it, and can only return behind calls -/
structure Inside (p : Program) (s : State V) : Prop where
  ip_le : s.ip ≤ p.size
  returns : ∀ address ∈ s.callStack, ReturnAddress p address

omit [Cell V] in
theorem inside_initial (p : Program) : Inside p (.initial : State V) :=
  ⟨Nat.zero_le _, fun _ h => absurd h List.not_mem_nil⟩

theorem Inside.step {s t : State V} (hs : Inside p s) (h : Step p s t) : Inside p t := by
  obtain ⟨hi, hd⟩ := h
  obtain ⟨hget, -⟩ := head_eq_pending_iff.1 hi
  have hnext : s.ip + 1 ≤ p.size := Program.lt_size_of_get? hget
  have hlabel : ∀ {target index}, p.label? target = some index → index + 1 ≤ p.size :=
    fun hl => Program.lt_size_of_get? (Program.label?_eq_some_iff.1 hl)
  obtain ⟨u, hu, rfl⟩ := dispatch_eq_ok_iff.1 hd
  cases hu with
  | comment | label | halt | operate | compare | pass | message => exact ⟨hnext, hs.returns⟩
  | jump _ hl => exact ⟨hlabel hl, hs.returns⟩
  | call hl =>
    refine ⟨hlabel hl, ?_⟩
    intro address hmem
    rcases List.mem_cons.1 hmem with rfl | hmem
    · exact ⟨s.ip, _, rfl, hget⟩
    · exact hs.returns address hmem
  | @ret address rest hstack =>
    have hmem : ∀ a ∈ address :: rest, ReturnAddress p a := by
      intro a ha
      exact hs.returns a ((show s.callStack = _ from hstack) ▸ ha)
    exact ⟨(hmem address List.mem_cons_self).le_size,
      fun a ha => hmem a (List.mem_cons_of_mem _ ha)⟩

/-- Before the end of a run its result is never that it has left the program -/
theorem result_ne_of_step {s t : State V} (h : Step p s t) (hs : s.result ≠ .outOfBounds) :
    t.result ≠ .outOfBounds := by
  obtain ⟨_, hd⟩ := h
  obtain ⟨u, hu, rfl⟩ := dispatch_eq_ok_iff.1 hd
  cases hu with
  | message _ => exact nofun
  | comment | label | halt | operate | compare | pass | jump | call | ret => exact hs

end Machine

open Machine

/-- A run is out of bounds exactly if it comes to the index behind the last instruction -/
theorem Program.outOfBounds_iff {p : Program} {limit : Option Nat} :
    (∃ o, p.run limit = some (.ok o) ∧ o.value = .outOfBounds) ↔
      ∃ (n : Nat) (s : State Word),
        (∀ m ∈ limit, n ≤ m) ∧ Steps p n .initial s ∧ s.ip = p.size := by
  constructor
  · intro h
    obtain ⟨o, hrun, hvalue⟩ := h
    cases Program.run_eq_some_iff.1 hrun with
    | @ended n _ he hm =>
      obtain ⟨s, hs, hstop⟩ := he
      cases hstop with
      | finished hf =>
        refine ⟨n, s, hm, hs, ?_⟩
        rcases head_eq_finished_iff.1 hf with ⟨hnone, _⟩ | ⟨_, rfl⟩
        · have hle := (hs.preserves (fun h hs => hs.step h) (inside_initial p)).ip_le
          exact Nat.le_antisymm hle (Program.get?_eq_none_iff.1 hnone)
        · have hne : s.result ≠ .outOfBounds := hs.preserves result_ne_of_step nofun
          exact absurd hvalue hne
  · intro h
    obtain ⟨n, s, hm, hs, hip⟩ := h
    have hnone : p.get? s.ip = none := Program.get?_eq_none_iff.2 (Nat.le_of_eq hip.symm)
    have hf := head_eq_finished_iff.2 (.inl ⟨hnone, rfl⟩)
    exact ⟨_, Program.run_eq_some_iff.2 (.ended ⟨s, hs, .finished hf⟩ hm), rfl⟩

/-- Control never leaves the program.  At the start of every turn of a run the index is at most
the number of instructions, and what is on the stack is one behind a call of the program; every
turn that succeeds goes where its instruction leads; one fails for want of a label exactly if it
goes to a label that no instruction is; and a run ends out of bounds exactly if the index becomes
the number of instructions -/
theorem Program.control_inside (p : Program) :
    (∀ {n : Nat} {s : State Word}, Steps p n .initial s →
      s.ip ≤ p.size ∧ ∀ address ∈ s.callStack,
        1 ≤ address ∧ address ≤ p.size ∧ ∃ target, p.get? (address - 1) = some (.call target)) ∧
    (∀ {s t : State Word} {i : Instruction}, head p s = .pending i → dispatch p s i = .ok t →
      destination? p s i = some t.ip) ∧
    (∀ {s : State Word} {i : Instruction}, head p s = .pending i →
      ((∃ d, dispatch p s i = .error d ∧ d.kind = .unknownLabel) ↔
        ∃ target, GoesTo s.flag i target ∧ .label target ∉ p.code)) ∧
    (∀ limit : Option Nat, (∃ o, p.run limit = some (.ok o) ∧ o.value = .outOfBounds) ↔
      ∃ (n : Nat) (s : State Word),
        (∀ m ∈ limit, n ≤ m) ∧ Steps p n .initial s ∧ s.ip = p.size) := by
  refine ⟨?_, fun _ hd => destination_of_dispatch hd, fun _ => unknownLabel_iff,
    fun limit => Program.outOfBounds_iff⟩
  intro n s hs
  have hinside : Inside p s := hs.preserves (fun h hs => hs.step h) (inside_initial p)
  refine ⟨hinside.ip_le, ?_⟩
  intro address hmem
  have haddress := hinside.returns address hmem
  refine ⟨?_, haddress.le_size, ?_⟩
  · obtain ⟨index, _, rfl, _⟩ := haddress
    exact Nat.succ_le_succ (Nat.zero_le index)
  · obtain ⟨index, target, rfl, hcall⟩ := haddress
    exact ⟨target, hcall⟩

end RegisterMachine
