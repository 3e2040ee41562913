import RegisterMachine.Proofs.Machine.Turn

/-!
# `RegisterMachine.Proofs.Machine.Steps` — runs as sequences of turns

A run is defined by two functions, one with a limit and one without.  Here it is
a relation, which mentions no limit at all:

    Step p s s'       one turn of `p` that succeeds leads from `s` to `s'`
    Steps p n s s'    `n` of them, one after the other
    Stop p s r        the turn in `s` is the last one, and the run comes to `r`
    Ends p n s r      `n` turns that succeed, and then the last one

The last turn either finds that the run has finished, and then dispatches
nothing, or dispatches an instruction that fails.  So a run that `Ends` after
`n` turns dispatches `n` instructions or one more (`dispatches`).

**Proved here.**

    a state has one turn                                 (`step_or_stop`, `Step.deterministic`)
    what every turn keeps every run keeps                (`Steps.preserves`)
    a run under a limit, whole or cut off                (`runFrom_of_ends`, `runFrom_of_pending`)
    a run without a limit is what it ends in             (`runUnlimited_eq_some_iff`)
    and it has no end exactly if there is always a turn  (`runUnlimited_eq_none_iff`)
-/

namespace RegisterMachine.Machine

variable {V : Type} [Cell V] {p : Program}

/-- A turn that succeeds -/
inductive Step (p : Program) (s s' : State V) : Prop
  | mk {i : Instruction} : head p s = .pending i → dispatch p s i = .ok s' → Step p s s'

/-- A number of turns that succeed -/
inductive Steps (p : Program) : Nat → State V → State V → Prop
  | refl (s : State V) : Steps p 0 s s
  | step {n : Nat} {s s' s'' : State V} :
      Step p s s' → Steps p n s' s'' → Steps p (n + 1) s s''

/-- The last turn of a run, and what the run comes to -/
inductive Stop (p : Program) (s : State V) : Except Diagnostic (Outcome V) → Prop
  | finished {o : Outcome V} : head p s = .finished o → Stop p s (.ok o)
  | failed {i : Instruction} {d : Diagnostic} :
      head p s = .pending i → dispatch p s i = .error d → Stop p s (.error d)

/-- A run that succeeds for a number of turns and comes to a result in the next one -/
def Ends (p : Program) (n : Nat) (s : State V) (r : Except Diagnostic (Outcome V)) : Prop :=
  ∃ s', Steps p n s s' ∧ Stop p s' r

/-- The instructions dispatched by a run that ends after so many turns: one that fails counts -/
def dispatches (n : Nat) : Except Diagnostic (Outcome V) → Nat
  | .ok _ => n
  | .error _ => n + 1

omit [Cell V] in
/-- The instructions of the turns that succeed, and that of the last turn if it fails -/
theorem dispatches_eq_add (n : Nat) (r : Except Diagnostic (Outcome V)) :
    dispatches n r = dispatches 0 r + n := by
  cases r with
  | ok o => exact (Nat.zero_add n).symm
  | error d => rw [dispatches, dispatches, Nat.zero_add, Nat.add_comm]

/-! ## One turn -/

/-- Every state has a turn -/
theorem step_or_stop (p : Program) (s : State V) : (∃ s', Step p s s') ∨ ∃ r, Stop p s r := by
  cases hh : head p s with
  | finished o => exact .inr ⟨_, .finished hh⟩
  | pending i =>
    cases hd : dispatch p s i with
    | ok s' => exact .inl ⟨s', .mk hh hd⟩
    | error d => exact .inr ⟨_, .failed hh hd⟩

theorem Step.deterministic {s t u : State V} (h : Step p s t) (h' : Step p s u) : t = u := by
  obtain ⟨hi, ht⟩ := h
  obtain ⟨hj, hu⟩ := h'
  rw [hi] at hj
  cases hj
  rw [ht] at hu
  exact Except.ok.inj hu

/-- The last turn does not succeed -/
theorem Step.not_stop {s t : State V} {r : Except Diagnostic (Outcome V)} (h : Step p s t) :
    ¬ Stop p s r := by
  intro hr
  obtain ⟨hi, ht⟩ := h
  cases hr with
  | finished ho =>
    rw [hi] at ho
    cases ho
  | failed hj hd =>
    rw [hi] at hj
    cases hj
    rw [ht] at hd
    cases hd

/-! ## Turns in a row -/

theorem Step.steps {s t : State V} (h : Step p s t) : Steps p 1 s t :=
  .step h (.refl t)

theorem Steps.trans {m n : Nat} {s t u : State V} (h : Steps p m s t) (h' : Steps p n t u) :
    Steps p (m + n) s u := by
  induction h with
  | refl s => rwa [Nat.zero_add]
  | step hs _ ih =>
    rw [Nat.add_right_comm]
    exact .step hs (ih h')

/-- What every turn keeps every run keeps -/
theorem Steps.preserves {P : State V → Prop} (hstep : ∀ {s t}, Step p s t → P s → P t)
    {n : Nat} {s t : State V} (h : Steps p n s t) (hs : P s) : P t := by
  induction h with
  | refl s => exact hs
  | step hturn _ ih => exact ih (hstep hturn hs)

/-- There are no more turns than those of a run that ends -/
theorem Ends.le {m n : Nat} {s t : State V} {r : Except Diagnostic (Outcome V)}
    (he : Ends p m s r) (h : Steps p n s t) : n ≤ m := by
  obtain ⟨u, hu, hr⟩ := he
  induction hu generalizing n with
  | refl s =>
    cases h with
    | refl => exact Nat.le_refl 0
    | step hs _ => exact absurd hr hs.not_stop
  | step hs _ ih =>
    cases h with
    | refl => exact Nat.zero_le _
    | step hs' h =>
      cases hs.deterministic hs'
      exact Nat.succ_le_succ (ih h hr)

/-! ## What dispatching does to any state -/

/-- An instruction that succeeds is counted, and nothing else is -/
theorem steps_dispatch {s s' : State V} {i : Instruction} (h : dispatch p s i = .ok s') :
    s'.steps = s.steps + 1 := by
  obtain ⟨t, ht, rfl⟩ := dispatch_eq_ok_iff.1 h
  cases ht <;> rfl

theorem Steps.steps_eq {n : Nat} {s s' : State V} (h : Steps p n s s') :
    s'.steps = s.steps + n := by
  induction h with
  | refl s => rfl
  | step hs _ ih =>
    obtain ⟨_, hd⟩ := hs
    rw [ih, steps_dispatch hd]
    omega

omit [Cell V] in
/-- A run that has finished tells the count of its state -/
theorem steps_of_finished {s : State V} {o : Outcome V} (h : head p s = .finished o) :
    o.steps = s.steps := by
  unfold head at h
  split at h <;> cases h <;> rfl

/-- A run that finishes tells how many turns it has had -/
theorem Ends.steps_eq {n : Nat} {s : State V} {o : Outcome V} (h : Ends p n s (.ok o)) :
    o.steps = s.steps + n := by
  obtain ⟨t, hs, hstop⟩ := h
  cases hstop with
  | finished ho => rw [steps_of_finished ho, hs.steps_eq]

/-- Before the last of some turns an instruction is pending at every count -/
theorem Steps.pending_of_lt {n k : Nat} {s s' : State V} (h : Steps p k s s') (hn : n < k) :
    ∃ t i, Steps p n s t ∧ head p t = .pending i := by
  induction h generalizing n with
  | refl s => exact absurd hn (Nat.not_lt_zero n)
  | @step k s t u hs hsteps ih =>
    cases n with
    | zero =>
      obtain ⟨hi, _⟩ := hs
      exact ⟨s, _, .refl s, hi⟩
    | succ n =>
      obtain ⟨w, i, hw, hi⟩ := ih (Nat.lt_of_succ_lt_succ hn)
      exact ⟨w, i, .step hs hw, hi⟩

/-! ## Runs under a limit -/

theorem runFrom_step {limit fuel : Nat} {s s' : State V} (h : Step p s s') :
    runFrom p limit (fuel + 1) s = runFrom p limit fuel s' := by
  obtain ⟨hh, hd⟩ := h
  rw [runFrom]
  simp only [hh, hd]

/-- Turns that succeed use up the limit one by one -/
theorem runFrom_steps {limit n fuel : Nat} {s s' : State V} (h : Steps p n s s') :
    runFrom p limit (fuel + n) s = runFrom p limit fuel s' := by
  induction h with
  | refl s => rfl
  | step hs _ ih => rw [← Nat.add_assoc, runFrom_step hs, ih]

/-- A limit that leaves room for all that a run dispatches does not change its result -/
theorem runFrom_of_ends {limit n fuel : Nat} {s : State V} {r : Except Diagnostic (Outcome V)}
    (h : Ends p n s r) (hf : dispatches n r ≤ fuel) : runFrom p limit fuel s = r := by
  obtain ⟨s', hs, ht⟩ := h
  cases ht with
  | finished ho =>
    obtain ⟨k, rfl⟩ := Nat.exists_eq_add_of_le' (show n ≤ fuel from hf)
    rw [runFrom_steps hs, runFrom]
    simp only [ho]
  | failed hi hd =>
    obtain ⟨k, rfl⟩ := Nat.exists_eq_add_of_le' (show n + 1 ≤ fuel from hf)
    rw [show k + (n + 1) = (k + 1) + n by omega, runFrom_steps hs, runFrom]
    simp only [hi, hd]

/-- A run that would dispatch one instruction more is cut off -/
theorem runFrom_of_pending {limit n : Nat} {s s' : State V} {i : Instruction}
    (h : Steps p n s s') (hi : head p s' = .pending i) :
    runFrom p limit n s = .error (cutOff p limit s') := by
  have hsteps : runFrom p limit (0 + n) s = runFrom p limit 0 s' := runFrom_steps h
  rw [Nat.zero_add] at hsteps
  rw [hsteps, runFrom]
  simp only [hi]

/-- Either a run ends within a limit or it is about to dispatch one instruction more -/
theorem ends_or_pending (p : Program) (fuel : Nat) (s : State V) :
    (∃ n r, Ends p n s r ∧ dispatches n r ≤ fuel) ∨
      ∃ s' i, Steps p fuel s s' ∧ head p s' = .pending i := by
  induction fuel generalizing s with
  | zero =>
    cases hh : head p s with
    | finished o => exact .inl ⟨0, _, ⟨s, .refl s, .finished hh⟩, Nat.le_refl 0⟩
    | pending i => exact .inr ⟨s, i, .refl s, hh⟩
  | succ fuel ih =>
    rcases step_or_stop p s with ⟨s', hs⟩ | ⟨r, hr⟩
    · rcases ih s' with ⟨n, r, ⟨t, ht, hr⟩, hle⟩ | ⟨t, i, ht, hi⟩
      · refine .inl ⟨n + 1, r, ⟨t, .step hs ht, hr⟩, ?_⟩
        cases r with
        | ok o => exact Nat.succ_le_succ hle
        | error d => exact Nat.succ_le_succ hle
      · exact .inr ⟨t, i, .step hs ht, hi⟩
    · refine .inl ⟨0, r, ⟨s, .refl s, hr⟩, ?_⟩
      cases r with
      | ok o => exact Nat.zero_le _
      | error d => exact Nat.succ_le_succ (Nat.zero_le _)

/-! ## Runs without a limit -/

theorem runUnlimited_step {s s' : State V} (h : Step p s s') :
    runUnlimited p s = runUnlimited p s' := by
  obtain ⟨hh, hd⟩ := h
  rw [runUnlimited]
  simp only [hh, hd]

theorem runUnlimited_of_stop {s : State V} {r : Except Diagnostic (Outcome V)}
    (h : Stop p s r) : runUnlimited p s = some r := by
  cases h with
  | finished ho => rw [runUnlimited]; simp only [ho]
  | failed hi hd => rw [runUnlimited]; simp only [hi, hd]

/-- Without a limit a run comes to a result exactly if it ends, after whatever number of turns -/
theorem runUnlimited_eq_some_iff {s : State V} {r : Except Diagnostic (Outcome V)} :
    runUnlimited p s = some r ↔ ∃ n, Ends p n s r := by
  constructor
  · -- least solutions: what the equation forces on every approximation holds of the run
    refine runUnlimited.partial_correctness p (fun s r => ∃ n, Ends p n s r) ?_ s r
    intro run ih s r h
    cases hh : head p s with
    | finished o =>
      simp only [hh, Option.some.injEq] at h
      exact h ▸ ⟨0, s, .refl s, .finished hh⟩
    | pending i =>
      cases hd : dispatch p s i with
      | ok s' =>
        simp only [hh, hd] at h
        obtain ⟨n, t, ht, hr⟩ := ih s' r h
        exact ⟨n + 1, t, .step (.mk hh hd) ht, hr⟩
      | error d =>
        simp only [hh, hd, Option.some.injEq] at h
        exact h ▸ ⟨0, s, .refl s, .failed hh hd⟩
  · rintro ⟨n, s', hs, hr⟩
    induction hs with
    | refl s => exact runUnlimited_of_stop hr
    | step hs _ ih => rw [runUnlimited_step hs, ih hr]

/-- Without a limit a run has no end exactly if there are turns of every number -/
theorem runUnlimited_eq_none_iff {s : State V} :
    runUnlimited p s = none ↔ ∀ n, ∃ t, Steps p n s t := by
  constructor
  · intro h n
    rcases ends_or_pending p n s with ⟨k, r, he, _⟩ | ⟨t, _, ht, _⟩
    · rw [runUnlimited_eq_some_iff.2 ⟨k, he⟩] at h
      cases h
    · exact ⟨t, ht⟩
  · intro h
    cases hr : runUnlimited p s with
    | none => rfl
    | some r =>
      obtain ⟨n, he⟩ := runUnlimited_eq_some_iff.1 hr
      obtain ⟨t, ht⟩ := h (n + 1)
      exact absurd (he.le ht) (Nat.not_succ_le_self n)

end RegisterMachine.Machine
