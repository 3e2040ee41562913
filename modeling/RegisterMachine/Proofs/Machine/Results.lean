import RegisterMachine.Proofs.Machine.Steps

/-!
# `RegisterMachine.Proofs.Machine.Results` — what a run comes to, under a limit or under none

`runUnder` is a run on any cells, with a limit or without.  What it comes to
(`ComesTo`) is one of two things:

    ended    the run ends, after no more instructions than the limit allows
    cutOff   there are as many turns as the limit allows, and an instruction is pending

and without a limit it may come to nothing, if there are always more turns.
These are all the cases (`runUnder_eq_some_iff`, `runUnder_eq_none_iff`), so two
machines are compared by their turns, and no limit is looked at.

A run that fails does so in one state, in which an instruction is pending
(`FailsIn`), and it is the place of that instruction which the fault is about.
-/

namespace RegisterMachine

namespace Machine

variable {V : Type} [Cell V] {p : Program} {limit : Option Nat} {s : State V}
  {r : Except Diagnostic (Outcome V)}

/-- A run under a limit or under none, if it ends -/
def runUnder (p : Program) : Option Nat → State V → Option (Except Diagnostic (Outcome V))
  | some limit, s => some (runFrom p limit limit s)
  | none, s => runUnlimited p s

/-- What a run comes to -/
inductive ComesTo (p : Program) (limit : Option Nat) (s : State V) :
    Except Diagnostic (Outcome V) → Prop
  | ended {n : Nat} {r : Except Diagnostic (Outcome V)} :
      Ends p n s r → (∀ m ∈ limit, dispatches n r ≤ m) → ComesTo p limit s r
  | cutOff {m : Nat} {t : State V} {i : Instruction} :
      m ∈ limit → Steps p m s t → head p t = .pending i → ComesTo p limit s (.error (cutOff p m t))

theorem runUnder_of_comesTo (h : ComesTo p limit s r) : runUnder p limit s = some r := by
  cases h with
  | @ended n _ he hm =>
    cases limit with
    | none => exact runUnlimited_eq_some_iff.2 ⟨n, he⟩
    | some m => exact congrArg some (runFrom_of_ends he (hm m rfl))
  | cutOff hm hs hi =>
    cases hm
    exact congrArg some (runFrom_of_pending hs hi)

theorem comesTo_of_runUnder (h : runUnder p limit s = some r) : ComesTo p limit s r := by
  cases limit with
  | none =>
    obtain ⟨n, he⟩ := runUnlimited_eq_some_iff.1 h
    exact .ended he (fun _ hm => by cases hm)
  | some m =>
    rcases ends_or_pending p m s with ⟨n, r', he, hle⟩ | ⟨t, i, ht, hi⟩
    · have hcomes : ComesTo p (some m) s r' := .ended he fun _ hm => by cases hm; exact hle
      rw [runUnder_of_comesTo hcomes] at h
      cases h
      exact hcomes
    · have hcomes : ComesTo p (some m) s (.error (cutOff p m t)) := .cutOff rfl ht hi
      rw [runUnder_of_comesTo hcomes] at h
      cases h
      exact hcomes

theorem runUnder_eq_some_iff : runUnder p limit s = some r ↔ ComesTo p limit s r :=
  ⟨comesTo_of_runUnder, runUnder_of_comesTo⟩

/-- A run fails in a state: in a turn that the limit allows, or because it would be one more -/
inductive FailsIn (p : Program) (limit : Option Nat) (s t : State V) : Diagnostic → Prop
  | failed {n : Nat} {i : Instruction} {d : Diagnostic} :
      (∀ m ∈ limit, n + 1 ≤ m) → Steps p n s t → head p t = .pending i →
      dispatch p t i = .error d → FailsIn p limit s t d
  | cutOff {m : Nat} {i : Instruction} :
      m ∈ limit → Steps p m s t → head p t = .pending i → FailsIn p limit s t (cutOff p m t)

/-- A run that comes to a fault fails in some state -/
theorem ComesTo.failsIn {d : Diagnostic} (h : ComesTo p limit s (.error d)) :
    ∃ t, FailsIn p limit s t d := by
  cases h with
  | ended he hm =>
    obtain ⟨t, hs, hstop⟩ := he
    cases hstop with
    | failed hi hd => exact ⟨t, .failed hm hs hi hd⟩
  | @cutOff _ t _ hm hs hi => exact ⟨t, .cutOff hm hs hi⟩

theorem FailsIn.comesTo {t : State V} {d : Diagnostic} (h : FailsIn p limit s t d) :
    ComesTo p limit s (.error d) := by
  cases h with
  | failed hm hs hi hd => exact .ended ⟨t, hs, .failed hi hd⟩ hm
  | cutOff hm hs hi => exact .cutOff hm hs hi

/-- A run that fails without being cut off fails in a turn that the limit allows -/
theorem ComesTo.failing_turn {d : Diagnostic} (h : ComesTo p limit s (.error d))
    (hd : d.kind ≠ .stepLimitExceeded) :
    ∃ k t i, (∀ m ∈ limit, k + 1 ≤ m) ∧ Steps p k s t ∧ head p t = .pending i ∧
      dispatch p t i = .error d := by
  obtain ⟨t, ht⟩ := h.failsIn
  cases ht with
  | failed hm hs hi hd => exact ⟨_, t, _, hm, hs, hi, hd⟩
  | cutOff _ _ _ => exact absurd rfl hd

/-- What fails is an instruction of the program, and the fault is where it stands -/
theorem FailsIn.span {t : State V} {d : Diagnostic} (h : FailsIn p limit s t d) :
    t.ip < p.size ∧ d.span = p.span? t.ip := by
  cases h with
  | failed _ _ hi hd =>
    obtain ⟨c, _, rfl⟩ := dispatch_eq_error_iff.1 hd
    exact ⟨Program.lt_size_of_get? (head_eq_pending_iff.1 hi).1, rfl⟩
  | cutOff _ _ hi => exact ⟨Program.lt_size_of_get? (head_eq_pending_iff.1 hi).1, rfl⟩

theorem runUnder_eq_none_iff :
    runUnder p limit s = none ↔ limit = none ∧ ∀ n, ∃ t, Steps p n s t := by
  cases limit with
  | none => simp only [runUnder, runUnlimited_eq_none_iff, true_and]
  | some m => simp [runUnder]

end Machine

open Machine

namespace Program

variable {p : Program} {limit : Option Nat}

theorem run_eq (p : Program) (limit : Option Nat) : p.run limit = runUnder p limit .initial := by
  cases limit <;> rfl

theorem run_eq_some_iff {r : Except Diagnostic (Outcome Word)} :
    p.run limit = some r ↔ ComesTo p limit .initial r := by
  rw [run_eq, runUnder_eq_some_iff]

theorem run_eq_none_iff :
    p.run limit = none ↔ limit = none ∧ ∀ n, ∃ t : State Word, Steps p n .initial t := by
  rw [run_eq, runUnder_eq_none_iff]

end Program

end RegisterMachine
