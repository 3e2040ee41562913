import RegisterMachine.Proofs.Machine.Trace

/-!
# `RegisterMachine.Proofs.Machine.CallStack` — calls and returns are well nested

Only two instructions touch the stack of return addresses, and only at its top:

    turn           stack before        stack behind it      goes to
    call           S                   a S                  the label
    return         a S                 S                    a
    all others     S                   S

So the part of the stack below a return address stays as it is until that
address is taken off, whatever is called and jumped to in between
(`Trace.below_return`), and the depth of the stack tells how many calls have
not returned (`Trace.depth_eq`).
-/

namespace RegisterMachine

def Instruction.isCall : Instruction → Bool
  | .call _ => true
  | _ => false

def Instruction.isReturn : Instruction → Bool
  | .ret => true
  | _ => false

namespace Machine

variable {V : Type} [Cell V] {p : Program}

/-- What a turn does to the stack -/
theorem callStack_of_dispatch {s t : State V} {i : Instruction} (h : dispatch p s i = .ok t) :
    (∃ target, i = .call target ∧ t.callStack = (s.ip + 1) :: s.callStack) ∨
      (i = .ret ∧ s.callStack = t.ip :: t.callStack) ∨
      (i.isCall = false ∧ i.isReturn = false ∧ t.callStack = s.callStack) := by
  obtain ⟨u, hu, rfl⟩ := dispatch_eq_ok_iff.1 h
  cases hu with
  | call _ => exact .inl ⟨_, rfl, rfl⟩
  | ret hs => exact .inr (.inl ⟨rfl, hs⟩)
  | comment | label | halt | operate | compare | pass | jump | message =>
    exact .inr (.inr ⟨rfl, rfl, rfl⟩)

/-- What is on the stack from a return address on stays there until that address is taken -/
theorem suffix_of_dispatch {s t : State V} {i : Instruction} {address : Nat} {rest : List Nat}
    (h : dispatch p s i = .ok t) (hs : address :: rest <:+ s.callStack) :
    address :: rest <:+ t.callStack ∨ (i = .ret ∧ t.callStack = rest ∧ t.ip = address) := by
  rcases callStack_of_dispatch h with ⟨_, _, ht⟩ | ⟨hi, hpop⟩ | ⟨_, _, ht⟩
  · rw [ht]
    exact .inl (hs.trans (List.suffix_cons _ _))
  · rw [hpop, List.suffix_cons_iff] at hs
    rcases hs with htop | hbelow
    · obtain ⟨haddress, hrest⟩ := List.cons.inj htop
      exact .inr ⟨hi, hrest.symm, haddress.symm⟩
    · exact .inl hbelow
  · rw [ht]
    exact .inl hs

/-- As long as the stack is not down to the part below a return address, that address and the
part are on it; and when it is for the first time, a return has gone to the address -/
theorem Trace.below_return {s t : State V} {turns : List (Turn V)} {address : Nat}
    {rest : List Nat} (h : Trace p s turns t) (hs : address :: rest <:+ s.callStack)
    (hturns : ∀ turn ∈ turns, turn.state.callStack.length ≠ rest.length) :
    address :: rest <:+ t.callStack ∨
      ((∃ turn ∈ turns.getLast?, turn.instruction = .ret) ∧ t.callStack = rest ∧
        t.ip = address) := by
  induction h with
  | start => exact .inl hs
  | @turn turns t u i htrace hi hd ih =>
    have hbefore : address :: rest <:+ t.callStack := by
      rcases ih fun turn hturn => hturns turn (List.mem_append_left _ hturn) with ht | ⟨_, ht, _⟩
      · exact ht
      · have hne := hturns ⟨t, i⟩ (List.mem_append_right _ List.mem_cons_self)
        exact absurd (congrArg List.length ht) hne
    rcases suffix_of_dispatch hd hbefore with hu | ⟨rfl, hu⟩
    · exact .inl hu
    · refine .inr ⟨⟨⟨t, .ret⟩, ?_, rfl⟩, hu⟩
      rw [List.getLast?_concat]
      rfl

/-! ## Counting -/

/-- The calls among turns -/
def calls (turns : List (Turn V)) : Nat :=
  turns.countP fun turn => turn.instruction.isCall

/-- The returns among turns -/
def returns (turns : List (Turn V)) : Nat :=
  turns.countP fun turn => turn.instruction.isReturn

/-- A turn makes the stack deeper by the call it is, or less deep by the return -/
theorem depth_of_dispatch {s t : State V} {i : Instruction} (h : dispatch p s i = .ok t) :
    s.callStack.length + calls [⟨s, i⟩] = returns [⟨s, i⟩] + t.callStack.length := by
  rw [calls, returns, List.countP_singleton, List.countP_singleton]
  rcases callStack_of_dispatch h with ⟨_, rfl, ht⟩ | ⟨rfl, hs⟩ | ⟨hcall, hret, ht⟩
  · simp [Instruction.isCall, Instruction.isReturn, ht]
  · simp [Instruction.isCall, Instruction.isReturn, hs, Nat.add_comm]
  · simp [hcall, hret, ht]

/-- The depth of the stack is what the calls have put on it and the returns have left -/
theorem Trace.depth_eq {s t : State V} {turns : List (Turn V)} (h : Trace p s turns t) :
    s.callStack.length + calls turns = returns turns + t.callStack.length := by
  induction h with
  | start => simp [calls, returns]
  | turn _ _ hd ih =>
    have hturn := depth_of_dispatch hd
    unfold calls returns at ih hturn ⊢
    rw [List.countP_append, List.countP_append]
    omega

end Machine

open Machine

/-- Calls and returns are well nested: after a call has gone from `s` to `t`, the stack stays on
top of the return address and the old stack, up to the first state with a stack of the old length;
that state comes out of a return, to the return address and with the old stack.  From the start of
a run on, the depth of the stack is the number of calls less the number of returns, and a return
fails exactly if these are equal -/
theorem Program.calls_nested (p : Program) :
    (∀ {s t u : State Word} {target : String} {turns : List (Turn Word)},
      head p s = .pending (.call target) → dispatch p s (.call target) = .ok t →
      Trace p t turns u →
      (∀ turn ∈ turns, turn.state.callStack.length ≠ s.callStack.length) →
        (u.callStack.length ≠ s.callStack.length →
          (s.ip + 1) :: s.callStack <:+ u.callStack) ∧
        (u.callStack.length = s.callStack.length →
          (∃ turn ∈ turns.getLast?, turn.instruction = .ret) ∧
            u.callStack = s.callStack ∧ u.ip = s.ip + 1)) ∧
    (∀ {s : State Word} {turns : List (Turn Word)}, Trace p .initial turns s →
      returns turns ≤ calls turns ∧ s.callStack.length = calls turns - returns turns ∧
      (head p s = .pending .ret →
        ((∃ d, dispatch p s .ret = .error d ∧ d.kind = .emptyCallStack) ↔
          calls turns = returns turns))) := by
  constructor
  · intro s t u target turns _ hcall htrace hturns
    have hpushed : (s.ip + 1) :: s.callStack <:+ t.callStack := by
      rcases callStack_of_dispatch hcall with ⟨_, _, ht⟩ | ⟨hi, _⟩ | ⟨hi, _⟩
      · exact ht ▸ List.suffix_refl _
      · cases hi
      · cases hi
    rcases htrace.below_return hpushed hturns with hbelow | hreturned
    · have hlength := hbelow.length_le
      rw [List.length_cons] at hlength
      exact ⟨fun _ => hbelow, fun heq => absurd heq (by omega)⟩
    · exact ⟨fun hne => absurd (congrArg List.length hreturned.2.1) hne, fun _ => hreturned⟩
  · intro s turns htrace
    have hdepth := htrace.depth_eq
    rw [show (State.initial : State Word).callStack.length = 0 from rfl, Nat.zero_add] at hdepth
    refine ⟨by omega, by omega, fun _ => ?_⟩
    rw [hdepth]
    constructor
    · intro hfails
      obtain ⟨d, hd, _⟩ := hfails
      obtain ⟨c, hc, _⟩ := dispatch_eq_error_iff.1 hd
      cases hc with
      | ret hs =>
        rw [show s.callStack = [] from hs]
        rfl
    · intro heq
      have hs : s.begun.callStack = [] := List.eq_nil_of_length_eq_zero
        (show s.callStack.length = 0 by omega)
      exact ⟨_, dispatch_eq_error_iff.2 ⟨_, .ret hs, rfl⟩, rfl⟩

end RegisterMachine
