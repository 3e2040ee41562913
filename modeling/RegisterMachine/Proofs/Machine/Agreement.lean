import RegisterMachine.Proofs.Machine.Results

/-!
# `RegisterMachine.Proofs.Machine.Agreement` — runs of programs with the same code

A run looks at the code of its program and, through the label table, at nothing
but the code again.  Where the instructions stand only shows in the place of a
fault.  So programs with the same code have the same runs, step by step, and
results that `Agree`.
-/

namespace RegisterMachine

/-- The same result, but for where a fault is -/
inductive Agree {V : Type} :
    Except Diagnostic (Outcome V) → Except Diagnostic (Outcome V) → Prop
  | ok (o : Outcome V) : Agree (.ok o) (.ok o)
  | error {d d' : Diagnostic} :
      d.kind = d'.kind → d.message = d'.message → Agree (.error d) (.error d')

theorem Agree.dispatches_eq {V : Type} {n : Nat} {r r' : Except Diagnostic (Outcome V)}
    (h : Agree r r') : Machine.dispatches n r = Machine.dispatches n r' := by
  cases h <;> rfl

variable {p q : Program}

theorem Program.labels_congr (h : p.code = q.code) : p.labels = q.labels := by
  rw [p.labels_eq, q.labels_eq, h]

namespace Machine

variable {V : Type} [Cell V]

theorem exec_congr (h : p.code = q.code) (s : State V) (i : Instruction) :
    exec p s i = exec q s i := by
  have hfind : ∀ name, p.findLabel name = q.findLabel name := by
    intro name
    rw [Program.findLabel, Program.findLabel, Program.label?, Program.label?,
      Program.labels_congr h]
  cases i <;> simp only [exec, hfind]

omit [Cell V] in
theorem head_congr (h : p.code = q.code) (s : State V) : head p s = head q s := by
  rw [head, head, Program.get?, Program.get?, h]

theorem dispatch_ok_congr (h : p.code = q.code) {s s' : State V} {i : Instruction}
    (hd : dispatch p s i = .ok s') : dispatch q s i = .ok s' := by
  rw [dispatch, exec_congr h] at hd
  rw [dispatch]
  split at hd
  · exact hd
  · cases hd

theorem dispatch_error_congr (h : p.code = q.code) {s : State V} {i : Instruction}
    {d : Diagnostic} (hd : dispatch p s i = .error d) :
    ∃ d', dispatch q s i = .error d' ∧ d.kind = d'.kind ∧ d.message = d'.message := by
  rw [dispatch, exec_congr h] at hd
  rw [dispatch]
  split at hd
  · cases hd
  · cases hd
    exact ⟨_, rfl, rfl, rfl⟩

theorem Step.congr (h : p.code = q.code) {s s' : State V} (hs : Step p s s') : Step q s s' := by
  obtain ⟨hi, hd⟩ := hs
  exact .mk ((head_congr h s).symm.trans hi) (dispatch_ok_congr h hd)

theorem Steps.congr (h : p.code = q.code) {n : Nat} {s s' : State V} (hs : Steps p n s s') :
    Steps q n s s' := by
  induction hs with
  | refl s => exact .refl s
  | step hstep _ ih => exact .step (hstep.congr h) ih

theorem Ends.congr (h : p.code = q.code) {n : Nat} {s : State V}
    {r : Except Diagnostic (Outcome V)} (he : Ends p n s r) : ∃ r', Ends q n s r' ∧ Agree r r' := by
  obtain ⟨s', hs, hstop⟩ := he
  cases hstop with
  | finished hf =>
    exact ⟨_, ⟨s', hs.congr h, .finished ((head_congr h s').symm.trans hf)⟩, .ok _⟩
  | failed hi hd =>
    obtain ⟨d', hd', hkind, hmessage⟩ := dispatch_error_congr h hd
    exact ⟨_, ⟨s', hs.congr h, .failed ((head_congr h s').symm.trans hi) hd'⟩,
      .error hkind hmessage⟩

theorem ComesTo.congr (h : p.code = q.code) {limit : Option Nat}
    {s : State V} {r : Except Diagnostic (Outcome V)} (hr : ComesTo p limit s r) :
    ∃ r', ComesTo q limit s r' ∧ Agree r r' := by
  cases hr with
  | ended he hm =>
    obtain ⟨r', he', hagree⟩ := he.congr h
    exact ⟨r', .ended he' (hagree.dispatches_eq ▸ hm), hagree⟩
  | @cutOff m t i hm hs hi =>
    exact ⟨_, .cutOff hm (hs.congr h) ((head_congr h t).symm.trans hi), .error rfl rfl⟩

end Machine

open Machine

/-- The same code has the same runs, under every limit and under none -/
theorem Program.run_congr (h : p.code = q.code) (limit : Option Nat) :
    Option.Rel Agree (p.run limit) (q.run limit) := by
  cases hp : p.run limit with
  | some r =>
    obtain ⟨r', hr', hagree⟩ := (run_eq_some_iff.1 hp).congr h
    rw [run_eq_some_iff.2 hr']
    exact .some hagree
  | none =>
    obtain ⟨hlimit, hsteps⟩ := run_eq_none_iff.1 hp
    have hq : q.run limit = none := by
      refine run_eq_none_iff.2 ⟨hlimit, ?_⟩
      intro n
      obtain ⟨t, hs⟩ := hsteps n
      exact ⟨t, hs.congr h⟩
    rw [hq]
    exact .none

end RegisterMachine
