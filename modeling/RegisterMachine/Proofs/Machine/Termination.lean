import Mathlib.Algebra.Ring.Nat
import RegisterMachine.Proofs.Machine.Limit

/-!
# `RegisterMachine.Proofs.Machine.Termination` — programs that only go forward halt

A program goes forward if every label that a jump or a call goes to is behind
it (`Program.Forward`).  What is left to go back to are return addresses, and
each of these was put on the stack by a call.  So the places that count are the
index of the instruction to execute and all the addresses on the stack, each with
the number of turns that a run from there may take:

    weight of an index      2 ^ (size - index) - 1
    potential of a state    the weights of its index and of its return addresses

    turn          weights before        weights behind it
    return        w ip + w a            w a                        w ip is not zero
    call          w ip                  w (label + 1) + w (ip + 1)    both are less than half
    all others    w ip                  w next                     next is behind ip

Every turn takes away from the potential, and a run starts with `2 ^ size - 1`.
-/

namespace RegisterMachine

/-- Every label that an instruction goes to, whether it is taken or not, is behind it -/
def Program.Forward (p : Program) : Prop :=
  ∀ index < p.size, ∀ i ∈ p.get? index, ∀ name ∈ i.target?, ∀ label ∈ p.label? name, index < label

instance (p : Program) : Decidable p.Forward :=
  inferInstanceAs (Decidable (∀ index < p.size, ∀ i ∈ p.get? index, ∀ name ∈ i.target?,
    ∀ label ∈ p.label? name, index < label))

theorem Program.Forward.lt {p : Program} (h : p.Forward) {index label : Nat} {i : Instruction}
    {name : String} (hi : p.get? index = some i) (hname : i.target? = some name)
    (hlabel : p.label? name = some label) : index < label :=
  h index (lt_size_of_get? hi) i hi name hname label hlabel

namespace Machine

variable {V : Type} [Cell V] {p : Program}

/-! ## Weights -/

/-- The number of turns that a run from an index may take before it goes back behind it -/
def weight (size index : Nat) : Nat :=
  2 ^ (size - index) - 1

theorem weight_of_lt {size index : Nat} (h : index < size) :
    weight size index = 2 * weight size (index + 1) + 1 := by
  have hsucc : size - index = (size - (index + 1)) + 1 := by omega
  have hpos := Nat.two_pow_pos (size - (index + 1))
  rw [weight, weight, hsucc, Nat.pow_succ]
  omega

theorem weight_pos {size index : Nat} (h : index < size) : 0 < weight size index := by
  rw [weight_of_lt h]
  exact Nat.succ_pos _

theorem weight_le {size index index' : Nat} (h : index ≤ index') :
    weight size index' ≤ weight size index :=
  Nat.sub_le_sub_right (Nat.pow_le_pow_right (by decide) (Nat.sub_le_sub_left h size)) 1

/-- The number of turns that a run from a state may take -/
def potential (size : Nat) (s : State V) : Nat :=
  weight size s.ip + (s.callStack.map (weight size)).sum

omit [Cell V] in
theorem potential_initial (size : Nat) : potential size (.initial : State V) = 2 ^ size - 1 :=
  rfl

/-! ## Turns -/

/-- Every turn takes away from the potential -/
theorem potential_lt (h : p.Forward) {s t : State V} (hs : Step p s t) :
    potential p.size t < potential p.size s := by
  obtain ⟨hi, hd⟩ := hs
  obtain ⟨hget, -⟩ := head_eq_pending_iff.1 hi
  have hlt : s.ip < p.size := Program.lt_size_of_get? hget
  have hbehind : ∀ {index}, s.ip < index → 2 * weight p.size index < weight p.size s.ip := by
    intro index hindex
    have hle : weight p.size index ≤ weight p.size (s.ip + 1) := weight_le hindex
    have hweight := weight_of_lt hlt
    omega
  have hnext : ∀ {index}, s.ip < index →
      weight p.size index + (s.callStack.map (weight p.size)).sum < potential p.size s := by
    intro index hindex
    have hhalf := hbehind hindex
    rw [potential]
    omega
  have hlabel : ∀ {i name label}, p.get? s.ip = some i → i.target? = some name →
      p.label? name = some label → s.ip < label + 1 := fun hget hname hl =>
    Nat.lt_succ_of_lt (h.lt hget hname hl)
  obtain ⟨u, hu, rfl⟩ := dispatch_eq_ok_iff.1 hd
  cases hu with
  | comment | label | halt | operate | compare | pass | message =>
    exact hnext (Nat.lt_succ_self s.ip)
  | jump _ hl => exact hnext (hlabel hget rfl hl)
  | @call _ label hl =>
    have htarget := hbehind (hlabel hget rfl hl)
    have hreturn : 2 * weight p.size (s.ip + 1) < weight p.size s.ip :=
      hbehind (Nat.lt_succ_self s.ip)
    show weight p.size (label + 1) +
      (weight p.size (s.ip + 1) + (s.callStack.map (weight p.size)).sum) < potential p.size s
    rw [potential]
    omega
  | @ret address rest hstack =>
    have hstack : s.callStack = address :: rest := hstack
    have hpos := weight_pos hlt
    show weight p.size address + (rest.map (weight p.size)).sum < potential p.size s
    rw [potential, hstack, List.map_cons, List.sum_cons]
    omega

/-- A run takes no more turns than its potential allows -/
theorem steps_add_potential_le (h : p.Forward) {n : Nat} {s t : State V} (hs : Steps p n s t) :
    n + potential p.size t ≤ potential p.size s := by
  induction hs with
  | refl s => exact Nat.le_of_eq (Nat.zero_add _)
  | step hturn _ ih =>
    have hlt := potential_lt h hturn
    omega

omit [Cell V] in
/-- A state in which an instruction is pending allows one turn more -/
theorem potential_pos {s : State V} {i : Instruction} (hi : head p s = .pending i) :
    0 < potential p.size s := by
  obtain ⟨hget, -⟩ := head_eq_pending_iff.1 hi
  exact Nat.lt_of_lt_of_le (weight_pos (Program.lt_size_of_get? hget)) (Nat.le_add_right _ _)

end Machine

namespace Program

open Machine

/-! ## Runs -/

variable {p : Program}

theorem Forward.not_dispatchesMoreThan (h : p.Forward) :
    ¬ p.DispatchesMoreThan (2 ^ p.size - 1) := by
  intro hmore
  obtain ⟨s, i, hs, hi⟩ := hmore
  have hle := steps_add_potential_le h hs
  have hpos := potential_pos hi
  rw [potential_initial] at hle
  omega

/-- A program that only goes forward halts.  Its run without a limit comes to a result, after it
has dispatched less than two to the number of its instructions, and a limit of as many does not
cut it off -/
theorem halts_of_forward (h : p.Forward) :
    ¬ CutOff (p.run (some (2 ^ p.size - 1))) ∧
    ∃ n r, Ends p n (.initial : State Word) r ∧ dispatches n r ≤ 2 ^ p.size - 1 ∧
      p.run none = some r ∧ p.run (some (2 ^ p.size - 1)) = some r := by
  have hmore := h.not_dispatchesMoreThan
  refine ⟨mt cutOff_iff.1 hmore, ?_⟩
  rcases run_some_cases p (2 ^ p.size - 1) with ⟨n, r, he, hle, hrun⟩ | ⟨s, i, hs, hi, _⟩
  · exact ⟨n, r, he, hle, run_none_of_ends he, hrun⟩
  · exact absurd ⟨s, i, hs, hi⟩ hmore

/-- Two calls of one procedure, which is run a third time when both have returned -/
theorem halts_of_forward_calls :
    ∃ p : Program, assemble #[.call "f", .call "f", .label "f", .ret] #[] (.inl rfl) = .ok p ∧
      p.Forward ∧ ¬ CutOff (p.run (some 15)) ∧
      ∃ n r, Ends p n (.initial : State Word) r ∧ dispatches n r ≤ 15 ∧ p.run none = some r ∧
        p.run (some 15) = some r := by
  let p : Program :=
    ⟨#[.call "f", .call "f", .label "f", .ret], #[], [("f", 2)], .inl rfl, rfl, by decide⟩
  have hforward : p.Forward := by decide
  exact ⟨p, rfl, hforward, halts_of_forward hforward⟩

end Program

end RegisterMachine
