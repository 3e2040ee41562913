import RegisterMachine.Proofs.Machine.Faults
import RegisterMachine.Proofs.Machine.Steps

/-!
# `RegisterMachine.Proofs.Machine.Limit` — what a step limit does to a run

A limit of `n` does one of two things to the run without a limit:

    the run dispatches at most n instructions    nothing, the result is the same
    the run dispatches one more                  it is cut off before that one

The two exclude each other, because the fault of being cut off is of a kind that
no instruction has (`kind_of_dispatch`).  The instruction that fails counts as
dispatched; finding an `end`, or nothing at all, does not.
-/

namespace RegisterMachine

open Machine

/-- The result of a run that was cut off -/
def CutOff (result : Option (Except Diagnostic (Outcome Word))) : Prop :=
  ∃ d, result = some (.error d) ∧ d.kind = .stepLimitExceeded

namespace Program

variable {p : Program}

/-- The run of a program without a limit dispatches more than so many instructions -/
def DispatchesMoreThan (p : Program) (n : Nat) : Prop :=
  ∃ (s : State Word) (i : Instruction), Steps p n .initial s ∧ head p s = .pending i

theorem run_none_of_ends {n : Nat} {r : Except Diagnostic (Outcome Word)}
    (h : Ends p n .initial r) : p.run none = some r :=
  runUnlimited_eq_some_iff.2 ⟨n, h⟩

theorem run_some_of_ends {n m : Nat} {r : Except Diagnostic (Outcome Word)}
    (h : Ends p n .initial r) (hm : dispatches n r ≤ m) : p.run (some m) = some r :=
  congrArg some (runFrom_of_ends h hm)

theorem run_some_of_pending {n : Nat} {s : State Word} {i : Instruction}
    (hs : Steps p n .initial s) (hi : head p s = .pending i) :
    p.run (some n) = some (.error (cutOff p n s)) :=
  congrArg some (runFrom_of_pending hs hi)

/-- Under a limit a run ends, as it would without one, or it is cut off in some state -/
theorem run_some_cases (p : Program) (n : Nat) :
    (∃ k r, Ends p k (.initial : State Word) r ∧ dispatches k r ≤ n ∧
      p.run (some n) = some r) ∨
    ∃ (s : State Word) (i : Instruction), Steps p n .initial s ∧ head p s = .pending i ∧
      p.run (some n) = some (.error (cutOff p n s)) := by
  rcases ends_or_pending p n (.initial : State Word) with ⟨k, r, he, hle⟩ | ⟨s, i, hs, hi⟩
  · exact .inl ⟨k, r, he, hle, run_some_of_ends he hle⟩
  · exact .inr ⟨s, i, hs, hi, run_some_of_pending hs hi⟩

theorem cutOff_of_dispatchesMoreThan {n : Nat} (h : p.DispatchesMoreThan n) :
    CutOff (p.run (some n)) := by
  obtain ⟨s, i, hs, hi⟩ := h
  exact ⟨cutOff p n s, run_some_of_pending hs hi, rfl⟩

theorem not_cutOff_of_stop {s : State Word} {r : Except Diagnostic (Outcome Word)}
    (h : Stop p s r) : ¬ CutOff (some r) := by
  rintro ⟨d, hr, hd⟩
  cases hr
  cases h with
  | failed hi he =>
    have hk := kind_of_dispatch he
    rw [hd] at hk
    cases hk

/-- A run ends within a limit or dispatches more than the limit allows, and not both -/
theorem cutOff_iff {n : Nat} : CutOff (p.run (some n)) ↔ p.DispatchesMoreThan n := by
  constructor
  · intro hcut
    rcases run_some_cases p n with ⟨k, r, ⟨s, _, hstop⟩, _, hrun⟩ | ⟨s, i, hs, hi, _⟩
    · rw [hrun] at hcut
      exact absurd hcut (not_cutOff_of_stop hstop)
    · exact ⟨s, i, hs, hi⟩
  · exact cutOff_of_dispatchesMoreThan

/-- A limit that does not cut a run off could as well be left out -/
theorem run_eq_run_none {limit : Option Nat} (h : ¬ CutOff (p.run limit)) :
    p.run limit = p.run none := by
  cases limit with
  | none => rfl
  | some n =>
    rcases run_some_cases p n with ⟨k, r, he, _, hrun⟩ | ⟨s, i, hs, hi, _⟩
    · rw [hrun, run_none_of_ends he]
    · exact absurd (cutOff_of_dispatchesMoreThan ⟨s, i, hs, hi⟩) h

/-- A run is cut off under every limit exactly if it has no end without one -/
theorem forall_cutOff_iff : (∀ n, CutOff (p.run (some n))) ↔ p.run none = none := by
  constructor
  · intro h
    refine runUnlimited_eq_none_iff.2 ?_
    intro n
    obtain ⟨s, _, hs, _⟩ := cutOff_iff.1 (h n)
    exact ⟨s, hs⟩
  · intro h n
    obtain ⟨_, hs⟩ := runUnlimited_eq_none_iff.1 h (n + 1)
    exact cutOff_iff.2 (hs.pending_of_lt (Nat.lt_succ_self n))

/-- A limit only cuts a run off, and exactly where the run would dispatch one instruction more
than it allows: a result that is not a cut-off is the result under every larger limit and under
none, a run that finishes after some steps needs a limit of as many, and one whose instruction
number `k + 1` fails needs a limit of `k + 1` -/
theorem run_limit_exact (p : Program) (n : Nat) :
    (¬ CutOff (p.run (some n)) →
      ∀ limit : Option Nat, (∀ m ∈ limit, n ≤ m) → p.run limit = p.run (some n)) ∧
    (CutOff (p.run (some n)) ↔ p.DispatchesMoreThan n) ∧
    (∀ o : Outcome Word, p.run none = some (.ok o) →
      (o.steps ≤ n → p.run (some n) = some (.ok o)) ∧
      (n < o.steps → CutOff (p.run (some n)))) ∧
    (∀ (k : Nat) (s : State Word) (i : Instruction) (d : Diagnostic),
      Steps p k .initial s → head p s = .pending i → dispatch p s i = .error d →
        p.run none = some (.error d) ∧ d.kind ≠ .stepLimitExceeded ∧
        (k + 1 ≤ n → p.run (some n) = some (.error d)) ∧
        (n < k + 1 → CutOff (p.run (some n)))) := by
  refine ⟨?_, cutOff_iff, ?_, ?_⟩
  · intro hcut limit hl
    rcases run_some_cases p n with ⟨k, r, he, hle, hrun⟩ | ⟨s, i, hs, hi, _⟩
    · rw [hrun]
      cases limit with
      | none => exact run_none_of_ends he
      | some m => exact run_some_of_ends he (Nat.le_trans hle (hl m rfl))
    · exact absurd (cutOff_of_dispatchesMoreThan ⟨s, i, hs, hi⟩) hcut
  · intro o ho
    obtain ⟨k, s, hs, hstop⟩ := runUnlimited_eq_some_iff.1 ho
    have hk : o.steps = k := by
      cases hstop with
      | finished hf => rw [steps_of_finished hf, hs.steps_eq]; exact Nat.zero_add k
    subst hk
    exact ⟨run_some_of_ends ⟨s, hs, hstop⟩, fun hn => cutOff_of_dispatchesMoreThan
      (hs.pending_of_lt hn)⟩
  · intro k s i d hs hi hd
    have he : Ends p k .initial (.error d) := ⟨s, hs, .failed hi hd⟩
    refine ⟨run_none_of_ends he, ?_, run_some_of_ends he, ?_⟩
    · intro hk
      exact not_cutOff_of_stop (.failed hi hd) ⟨d, rfl, hk⟩
    · intro hn
      rcases Nat.lt_succ_iff_lt_or_eq.1 hn with hn | rfl
      · exact cutOff_of_dispatchesMoreThan (hs.pending_of_lt hn)
      · exact cutOff_of_dispatchesMoreThan ⟨s, i, hs, hi⟩

end Program

end RegisterMachine
