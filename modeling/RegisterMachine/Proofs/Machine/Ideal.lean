import RegisterMachine.Proofs.Machine.Faults
import RegisterMachine.Proofs.Machine.Operations
import RegisterMachine.Proofs.Machine.Results
import RegisterMachine.Proofs.Machine.Turn

/-!
# `RegisterMachine.Proofs.Machine.Ideal` — the machine on words against the ideal one

The ideal machine is the same machine with registers that hold any integer.  Its
arithmetic is exact, a quotient is rounded down, and every result fits, so it
never overflows (`Fault.kind_ne_overflow`).  Words have an arithmetic of their
own, which may have no result and divides with rounding toward zero first; that
its results are the exact ones is known of each kind of cell.

The machine on words follows it turn by turn, and its state is the ideal one with
the integers in cells (`State.exact`):

    turn on words                       turn of the ideal machine
    succeeds                            succeeds, and the states still agree
    fails, but not by an overflow       fails in the same way
    fails by an overflow                writes an integer that is no word

So no run goes on with a number that is not the exact one, and none is given up
for a number that is a word.
-/

namespace RegisterMachine

variable {V : Type} [Cell V] {p : Program}

/-! ## States and outcomes in integers -/

/-- The state of the ideal machine that a state stands for -/
def State.exact (s : State V) : State Int where
  ip := s.ip
  next := s.next
  flag := s.flag
  registers := s.registers.exact
  callStack := s.callStack
  result := s.result
  output := s.output
  steps := s.steps

/-- The outcome of the ideal machine that an outcome stands for -/
def Outcome.exact (o : Outcome V) : Outcome Int where
  value := o.value
  registers := o.registers.exact
  output := o.output
  steps := o.steps

theorem State.exact_write (s : State V) (target : String) (v : V) :
    ({ s with registers := s.registers.insert target v } : State V).exact =
      { s.exact with registers := s.exact.registers.insert target (Cell.toInt v) } := by
  simp only [State.exact, Registers.exact_insert]

namespace Machine

/-! ## One turn -/

theorem Effect.exact {s t : State V} {i : Instruction} (h : Effect p s i t) :
    Effect p s.exact i t.exact := by
  cases h with
  | comment => exact .comment
  | label => exact .label
  | halt => exact .halt
  | operate hv =>
    rw [State.exact_write]
    exact .operate (evaluate_exact_of_ok hv)
  | compare hl hr => exact .compare (read_exact_of_ok hl) (read_exact_of_ok hr)
  | pass hc => exact .pass hc
  | jump hc hl => exact .jump hc hl
  | call hl => exact .call hl
  | ret hs => exact .ret hs
  | message ht => exact .message ((Template.interpolate_exact _ _).trans ht)

/-- An instruction that fails fails in the ideal machine too, or it has a result there that is in
no cell -/
theorem Fault.exact {s : State V} {i : Instruction} {c : Cause} (h : Fault p s i c) :
    Fault p s.exact i c ∨
      ∃ operation target n, i = .operate operation target ∧ c = .overflow operation.name target ∧
        evaluate s.exact.registers target operation = .ok n ∧
        (Cell.ofInt? n : Option V) = none := by
  cases h with
  | operate hv =>
    rcases evaluate_exact_of_error hv with hv | ⟨n, hn, hnone, hc⟩
    · exact .inl (.operate hv)
    · exact .inr ⟨_, _, n, rfl, hc, hn, hnone⟩
  | compareLeft hl => exact .inl (.compareLeft (read_exact_of_error hl))
  | compareRight hl hr => exact .inl (.compareRight (read_exact_of_ok hl) (read_exact_of_error hr))
  | jump hc hl => exact .inl (.jump hc hl)
  | call hl => exact .inl (.call hl)
  | ret hs => exact .inl (.ret hs)
  | message ht => exact .inl (.message ((Template.interpolate_exact _ _).trans ht))

/-- No instruction of the ideal machine overflows -/
theorem Fault.kind_ne_overflow {s : State Int} {i : Instruction} {c : Cause} (h : Fault p s i c) :
    c.kind ≠ .overflow := by
  cases h with
  | operate hv =>
    rcases fault_of_evaluate hv with ⟨_, hf⟩ | rfl | ⟨⟨n, hnone⟩, _⟩
    · rw [Registers.kind_of_fetch hf]; exact nofun
    · exact nofun
    · cases hnone
  | compareLeft hl => rw [kind_of_read hl]; exact nofun
  | compareRight _ hr => rw [kind_of_read hr]; exact nofun
  | jump | call | ret => exact nofun
  | message ht => rw [Template.kind_of_interpolate ht]; exact nofun

theorem pending_exact {s : State V} {i : Instruction} (h : head p s = .pending i) :
    head p s.exact = .pending i := by
  obtain ⟨hget, hne⟩ := head_eq_pending_iff.1 h
  exact head_eq_pending_iff.2 ⟨hget, hne⟩

theorem finished_exact {s : State V} {o : Outcome V} (h : head p s = .finished o) :
    head p s.exact = .finished o.exact := by
  refine head_eq_finished_iff.2 ?_
  rcases head_eq_finished_iff.1 h with ⟨hnone, rfl⟩ | ⟨hhalt, rfl⟩
  · exact .inl ⟨hnone, rfl⟩
  · exact .inr ⟨hhalt, rfl⟩

theorem dispatch_exact {s t : State V} {i : Instruction} (h : dispatch p s i = .ok t) :
    dispatch p s.exact i = .ok t.exact := by
  obtain ⟨u, hu, rfl⟩ := dispatch_eq_ok_iff.1 h
  exact dispatch_eq_ok_iff.2 ⟨u.exact, hu.exact, rfl⟩

/-! ## Runs -/

theorem Steps.exact {n : Nat} {s t : State V} (h : Steps p n s t) : Steps p n s.exact t.exact := by
  induction h with
  | refl s => exact .refl s.exact
  | step hs _ ih =>
    obtain ⟨hi, hd⟩ := hs
    exact .step (.mk (pending_exact hi) (dispatch_exact hd)) ih

/-- What a run comes to without an overflow the ideal run comes to as well -/
theorem ComesTo.exact {limit : Option Nat} {s : State V} {r : Except Diagnostic (Outcome V)}
    (h : ComesTo p limit s r) (hr : ∀ d, r = .error d → d.kind ≠ .overflow) :
    ComesTo p limit s.exact (r.map Outcome.exact) := by
  cases h with
  | ended he hm =>
    obtain ⟨t, ht, hstop⟩ := he
    cases hstop with
    | finished hf => exact .ended ⟨t.exact, ht.exact, .finished (finished_exact hf)⟩ hm
    | failed hi hd =>
      obtain ⟨c, hc, rfl⟩ := dispatch_eq_error_iff.1 hd
      rcases hc.exact with hc | ⟨_, _, _, _, rfl, _⟩
      · have hd : dispatch p t.exact _ = .error _ := dispatch_eq_error_iff.2 ⟨c, hc, rfl⟩
        exact .ended ⟨t.exact, ht.exact, .failed (pending_exact hi) hd⟩ hm
      · exact absurd rfl (hr _ rfl)
  | cutOff hm ht hi => exact .cutOff hm ht.exact (pending_exact hi)

end Machine

open Machine

/-- The result of a run that fails because a number does not fit -/
def Overflows (result : Option (Except Diagnostic (Outcome Word))) : Prop :=
  ∃ d, result = some (.error d) ∧ d.kind = .overflow

namespace Program

/-- The run of a program on exact integers, under a limit or under none, if it ends -/
def idealRun (p : Program) (limit : Option Nat) : Option (Except Diagnostic (Outcome Int)) :=
  runUnder p limit .initial

/-- The machine on words is the ideal machine up to the first number that is no word.  Without an
overflow the two come to the same; at an overflow the ideal machine has come to the same state,
and what it writes there is no word; the ideal machine never overflows; and all along the run
the registers hold the exact integers -/
theorem run_refines_ideal (p : Program) (limit : Option Nat) :
    (¬ Overflows (p.run limit) →
      p.idealRun limit = (p.run limit).map (Except.map Outcome.exact)) ∧
    (∀ d, p.run limit = some (.error d) → d.kind = .overflow →
      ∃ (k : Nat) (s : State Word) (operation : Operation) (target : String) (n : Int)
        (t : State Int),
        (∀ m ∈ limit, k + 1 ≤ m) ∧ Steps p k .initial s ∧
        head p s = .pending (.operate operation target) ∧
        dispatch p s (.operate operation target) = .error d ∧
        Steps p k .initial s.exact ∧ head p s.exact = .pending (.operate operation target) ∧
        dispatch p s.exact (.operate operation target) = .ok t ∧
        t.registers = s.exact.registers.insert target n ∧ ¬ Word.Fits n) ∧
    (∀ d, p.idealRun limit = some (.error d) → d.kind ≠ .overflow) ∧
    (∀ (k : Nat) (s : State Word), Steps p k .initial s → Steps p k .initial s.exact) := by
  refine ⟨?_, ?_, ?_, fun k s hs => hs.exact⟩
  · intro hoverflows
    cases hrun : p.run limit with
    | none =>
      obtain ⟨hlimit, hsteps⟩ := run_eq_none_iff.1 hrun
      refine runUnder_eq_none_iff.2 ⟨hlimit, fun n => ?_⟩
      obtain ⟨s, hs⟩ := hsteps n
      exact ⟨s.exact, hs.exact⟩
    | some r =>
      refine runUnder_of_comesTo ((run_eq_some_iff.1 hrun).exact ?_)
      intro d hd hkind
      exact hoverflows ⟨d, hd ▸ hrun, hkind⟩
  · intro d hrun hkind
    obtain ⟨k, s, i, hm, hs, hi, hd⟩ := (run_eq_some_iff.1 hrun).failing_turn (hkind ▸ nofun)
    obtain ⟨c, hc, rfl⟩ := dispatch_eq_error_iff.1 hd
    rcases hc.exact with hc | ⟨operation, target, n, rfl, _, hn, hnone⟩
    · exact absurd hkind hc.kind_ne_overflow
    · exact ⟨k, s, operation, target, n, _, hm, hs, hi, hd, hs.exact, pending_exact hi,
        dispatch_eq_ok_iff.2 ⟨_, .operate hn, rfl⟩, rfl, Word.ofInt?_eq_none_iff.1 hnone⟩
  · intro d hrun hkind
    obtain ⟨_, _, _, _, _, _, hd⟩ := (comesTo_of_runUnder hrun).failing_turn (hkind ▸ nofun)
    obtain ⟨c, hc, rfl⟩ := dispatch_eq_error_iff.1 hd
    exact hc.kind_ne_overflow hkind

end Program

end RegisterMachine
