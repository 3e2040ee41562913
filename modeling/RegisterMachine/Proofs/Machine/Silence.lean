import RegisterMachine.Proofs.Machine.Control

/-!
# `RegisterMachine.Proofs.Machine.Silence` — a program without its messages

Put a comment in place of each message of a program, and leave all else where it is.
What the messages have left in a state is their texts, and the last one once more as
the result.  No instruction looks at either.  So the silenced program takes the same
turns through the same states, but for these two:

    turn                        in the silenced program
    message                     the same effect on all else         (`Effect.silenced`)
    any other                   the same effect                     (`Effect.silenced`)
    fault of a message          may not be there: nothing is read
    any other fault, cut off    the same, at the same place         (`Fault.silenced`)

A silenced run has no message to answer with, and what is left of its answer is whether
it has left the program.
-/

namespace RegisterMachine

/-! ## Programs, states and outcomes without messages -/

/-- A comment in place of a message -/
def Instruction.silenced : Instruction → Instruction
  | .message _ => .comment
  | i => i

theorem Instruction.silenced_of_ne {i : Instruction} (h : ∀ template, i ≠ .message template) :
    i.silenced = i := by
  cases i with
  | message template => exact absurd rfl (h template)
  | _ => rfl

theorem labelTable_map_silenced (code : List Instruction) :
    labelTable (code.map Instruction.silenced) = labelTable code := by
  rw [labelTable, List.zipIdx_map, List.filterMap_map]
  refine congrArg (List.filterMap · code.zipIdx) (funext ?_)
  intro e
  obtain ⟨i, index⟩ := e
  cases i <;> rfl

/-- The program with a comment in place of each message -/
def Program.silenced (p : Program) : Program where
  code := p.code.map Instruction.silenced
  spans := p.spans
  labels := p.labels
  spans_fit := by
    rw [Array.size_map]
    exact p.spans_fit
  labels_eq := by rw [Array.toList_map, labelTable_map_silenced, p.labels_eq]
  labels_nodup := p.labels_nodup

@[simp] theorem Program.get?_silenced (p : Program) (index : Nat) :
    p.silenced.get? index = (p.get? index).map Instruction.silenced :=
  Array.getElem?_map

variable {V : Type}

/-- The state without what messages have left there -/
def State.silenced (s : State V) : State V :=
  { s with result := .noMessage, output := #[] }

/-- The outcome without what messages have left there -/
def Outcome.silenced (o : Outcome V) : Outcome V where
  value := if o.value = .outOfBounds then .outOfBounds else .noMessage
  registers := o.registers
  output := #[]
  steps := o.steps

namespace Machine

variable [Cell V] {p : Program} {limit : Option Nat} {s t : State V} {i : Instruction}

/-! ## One turn -/

theorem Effect.silenced (h : Effect p s i t) :
    Effect p.silenced s.silenced i.silenced t.silenced := by
  cases h with
  | comment => exact .comment
  | label => exact .label
  | halt => exact .halt
  | operate hv => exact .operate hv
  | compare hl hr => exact .compare hl hr
  | pass hc => exact .pass hc
  | jump hc hl => exact .jump hc hl
  | call hl => exact .call hl
  | ret hs => exact .ret hs
  | message _ => exact .comment

theorem Fault.silenced {c : Cause} (h : Fault p s i c) (hi : ∀ template, i ≠ .message template) :
    Fault p.silenced s.silenced i c := by
  cases h with
  | operate hv => exact .operate hv
  | compareLeft hl => exact .compareLeft hl
  | compareRight hl hr => exact .compareRight hl hr
  | jump hc hl => exact .jump hc hl
  | call hl => exact .call hl
  | ret hs => exact .ret hs
  | message _ => exact absurd rfl (hi _)

omit [Cell V] in
theorem pending_silenced (h : head p s = .pending i) :
    head p.silenced s.silenced = .pending i.silenced := by
  obtain ⟨hget, hne⟩ := head_eq_pending_iff.1 h
  refine head_eq_pending_iff.2 ⟨?_, ?_⟩
  · show p.silenced.get? s.ip = _
    rw [Program.get?_silenced, hget, Option.map_some]
  · cases i with
    | halt => exact absurd rfl hne
    | _ => exact nofun

omit [Cell V] in
/-- A run that has finished has finished without messages too, and has left the program or not -/
theorem finished_silenced {o : Outcome V} (h : head p s = .finished o)
    (hs : s.result ≠ .outOfBounds) : head p.silenced s.silenced = .finished o.silenced := by
  refine head_eq_finished_iff.2 ?_
  change (p.silenced.get? s.ip = none ∧ _) ∨ (p.silenced.get? s.ip = some .halt ∧ _)
  rw [Program.get?_silenced]
  rcases head_eq_finished_iff.1 h with ⟨hnone, rfl⟩ | ⟨hhalt, rfl⟩
  · rw [hnone]
    exact .inl ⟨rfl, rfl⟩
  · rw [hhalt, Outcome.silenced, if_neg (show s.outcome.value ≠ .outOfBounds from hs)]
    exact .inr ⟨rfl, rfl⟩

theorem Step.silenced (h : Step p s t) : Step p.silenced s.silenced t.silenced := by
  obtain ⟨hi, hd⟩ := h
  obtain ⟨u, hu, rfl⟩ := dispatch_eq_ok_iff.1 hd
  exact .mk (pending_silenced hi) (dispatch_eq_ok_iff.2 ⟨u.silenced, hu.silenced, rfl⟩)

/-! ## Runs -/

theorem Steps.silenced {n : Nat} (h : Steps p n s t) :
    Steps p.silenced n s.silenced t.silenced := by
  induction h with
  | refl s => exact .refl s.silenced
  | step hs _ ih => exact .step hs.silenced ih

/-- A run that ends ends without messages too, after as many turns -/
theorem ComesTo.silenced {o : Outcome V} (h : ComesTo p limit s (.ok o))
    (hs : s.result ≠ .outOfBounds) : ComesTo p.silenced limit s.silenced (.ok o.silenced) := by
  cases h with
  | ended he hm =>
    obtain ⟨t, ht, hstop⟩ := he
    cases hstop with
    | finished hf =>
      have hf := finished_silenced hf (ht.preserves result_ne_of_step hs)
      exact .ended ⟨t.silenced, ht.silenced, .finished hf⟩ hm

/-- A run that fails fails without messages too, and for the same reason, if it is no message that
fails -/
theorem FailsIn.silenced {d : Diagnostic} (h : FailsIn p limit s t d)
    (hd : d.kind = .stepLimitExceeded ∨ ∀ template, p.get? t.ip ≠ some (.message template)) :
    FailsIn p.silenced limit s.silenced t.silenced d := by
  cases h with
  | @failed _ i _ hm hs hi hfails =>
    have hget := (head_eq_pending_iff.1 hi).1
    have hmessage : ∀ template, i ≠ .message template := by
      intro template heq
      rcases hd with hkind | hd
      · have hexec := kind_of_dispatch hfails
        rw [hkind] at hexec
        cases hexec
      · exact hd template (heq ▸ hget)
    have hpending := pending_silenced hi
    rw [Instruction.silenced_of_ne hmessage] at hpending
    obtain ⟨c, hc, rfl⟩ := dispatch_eq_error_iff.1 hfails
    exact .failed hm hs.silenced hpending
      (dispatch_eq_error_iff.2 ⟨c, Fault.silenced hc hmessage, rfl⟩)
  | cutOff hm hs hi => exact .cutOff hm hs.silenced (pending_silenced hi)

end Machine

namespace Program

open Machine

/-- Messages are seen and change nothing.  With a comment in place of each, a run that ends ends
with the same registers after as many steps, without output, and out of bounds if and only if it
did; a run that is cut off, or fails at an instruction that is no message, fails with the same
diagnostic at the same place; and a run without an end is one still -/
theorem run_silenced (p : Program) (limit : Option Nat) :
    (∀ o, p.run limit = some (.ok o) → p.silenced.run limit = some (.ok o.silenced)) ∧
    (∀ d, p.run limit = some (.error d) →
      (d.kind = .stepLimitExceeded ∨ ∃ t : State Word, FailsIn p limit .initial t d ∧
        ∀ template, p.get? t.ip ≠ some (.message template)) →
      p.silenced.run limit = some (.error d)) ∧
    (p.run limit = none → p.silenced.run limit = none) := by
  refine ⟨?_, ?_, ?_⟩
  · intro o ho
    exact run_eq_some_iff.2 ((run_eq_some_iff.1 ho).silenced nofun)
  · intro d hd hcase
    obtain ⟨t, ht, hmessage⟩ : ∃ t : State Word, FailsIn p limit .initial t d ∧
        (d.kind = .stepLimitExceeded ∨ ∀ template, p.get? t.ip ≠ some (.message template)) := by
      rcases hcase with hkind | ⟨t, ht, hmessage⟩
      · obtain ⟨t, ht⟩ := (run_eq_some_iff.1 hd).failsIn
        exact ⟨t, ht, .inl hkind⟩
      · exact ⟨t, ht, .inr hmessage⟩
    exact run_eq_some_iff.2 (ht.silenced hmessage).comesTo
  · intro hnone
    obtain ⟨hlimit, hsteps⟩ := run_eq_none_iff.1 hnone
    refine run_eq_none_iff.2 ⟨hlimit, ?_⟩
    intro n
    obtain ⟨t, ht⟩ := hsteps n
    exact ⟨t.silenced, ht.silenced⟩

end Program

end RegisterMachine
