import RegisterMachine.Proofs.Machine.Steps
import RegisterMachine.Proofs.Machine.Turn

/-!
# `RegisterMachine.Proofs.Machine.Trace` — runs that remember their turns

A state does not say how it was reached.  A trace does: `Trace p s turns t` is a
run of `p` from `s` to `t` with the turns that were taken on the way, each with
the state in which it was taken and the instruction that was executed.  It grows
at its end, as the run does, so an induction on it compares what a run has done
with the state it is in.

Every run has a trace, with a turn for each step (`steps_iff_trace`).
-/

namespace RegisterMachine.Machine

variable {V : Type} [Cell V] {p : Program}

/-- A turn that was taken: the instruction that was executed, and the state in which it was -/
structure Turn (V : Type) where
  state : State V
  instruction : Instruction

/-- A run from one state to another, with the turns it has taken -/
inductive Trace (p : Program) (s : State V) : List (Turn V) → State V → Prop
  | start : Trace p s [] s
  | turn {turns : List (Turn V)} {t u : State V} {i : Instruction} :
      Trace p s turns t → head p t = .pending i → dispatch p t i = .ok u →
      Trace p s (turns ++ [⟨t, i⟩]) u

theorem Trace.steps {s t : State V} {turns : List (Turn V)} (h : Trace p s turns t) :
    Steps p turns.length s t := by
  induction h with
  | start => exact .refl s
  | turn _ hi hd ih =>
    rw [List.length_append]
    exact ih.trans (Step.steps (.mk hi hd))

/-- A trace goes on from its start as well -/
theorem Trace.cons {s t u : State V} {i : Instruction} {turns : List (Turn V)}
    (hi : head p s = .pending i) (hd : dispatch p s i = .ok t) (h : Trace p t turns u) :
    Trace p s (⟨s, i⟩ :: turns) u := by
  induction h with
  | start => exact .turn .start hi hd
  | turn _ hj he ih => exact .turn ih hj he

/-- Every run of so many turns has a trace of as many, and every trace is of a run -/
theorem steps_iff_trace {n : Nat} {s t : State V} :
    Steps p n s t ↔ ∃ turns, turns.length = n ∧ Trace p s turns t := by
  constructor
  · intro h
    induction h with
    | refl s => exact ⟨[], rfl, .start⟩
    | step hs _ ih =>
      obtain ⟨hi, hd⟩ := hs
      obtain ⟨turns, hlength, htrace⟩ := ih
      exact ⟨_ :: turns, congrArg Nat.succ hlength, htrace.cons hi hd⟩
  · intro h
    obtain ⟨turns, rfl, htrace⟩ := h
    exact htrace.steps

/-- What was executed is the instruction of the index that the machine was at -/
theorem Trace.get?_of_mem {s t : State V} {turns : List (Turn V)} (h : Trace p s turns t)
    {turn : Turn V} (hturn : turn ∈ turns) : p.get? turn.state.ip = some turn.instruction := by
  induction h with
  | start => cases hturn
  | turn _ hi _ ih =>
    rcases List.mem_append.1 hturn with hturn | hturn
    · exact ih hturn
    · rw [List.mem_singleton.1 hturn]
      exact (head_eq_pending_iff.1 hi).1

/-- What was executed has succeeded -/
theorem Trace.dispatch_of_mem {s t : State V} {turns : List (Turn V)} (h : Trace p s turns t)
    {turn : Turn V} (hturn : turn ∈ turns) :
    ∃ u, dispatch p turn.state turn.instruction = .ok u := by
  induction h with
  | start => cases hturn
  | turn _ _ hd ih =>
    rcases List.mem_append.1 hturn with hturn | hturn
    · exact ih hturn
    · rw [List.mem_singleton.1 hturn]
      exact ⟨_, hd⟩

/-! ## The latest turn of some kind -/

/-- The turn is the last of these that has a property -/
def Latest (P : Turn V → Prop) (turns : List (Turn V)) (turn : Turn V) : Prop :=
  ∃ before after, turns = before ++ turn :: after ∧ P turn ∧ ∀ later ∈ after, ¬ P later

variable {P : Turn V → Prop} {turns : List (Turn V)} {turn u : Turn V}

omit [Cell V] in
theorem not_latest_nil : ¬ Latest P [] turn := by
  rintro ⟨before, after, h, _⟩
  exact List.append_ne_nil_of_right_ne_nil before (List.cons_ne_nil turn after) h.symm

omit [Cell V] in
/-- One more turn is the latest if it has the property, and otherwise leaves the latest as it is -/
theorem latest_concat_iff :
    Latest P (turns ++ [u]) turn ↔ P u ∧ turn = u ∨ ¬ P u ∧ Latest P turns turn := by
  constructor
  · rintro ⟨before, after, hsplit, hturn, hafter⟩
    rcases List.eq_nil_or_concat after with rfl | ⟨after, v, rfl⟩
    · obtain ⟨_, hu⟩ := List.append_inj' hsplit rfl
      cases hu
      exact .inl ⟨hturn, rfl⟩
    · rw [List.concat_eq_append] at hsplit hafter
      have hsplit' : turns ++ [u] = (before ++ turn :: after) ++ [v] := by
        rw [hsplit, List.append_assoc, List.cons_append]
      obtain ⟨rfl, hu⟩ := List.append_inj' hsplit' rfl
      cases hu
      rw [List.forall_mem_append] at hafter
      exact .inr ⟨hafter.2 u (List.mem_singleton_self u), before, after, rfl, hturn, hafter.1⟩
  · rintro (⟨hu, rfl⟩ | ⟨hu, before, after, rfl, hturn, hafter⟩)
    · exact ⟨turns, [], rfl, hu, List.forall_mem_nil _⟩
    · refine ⟨before, after ++ [u], by rw [List.append_assoc, List.cons_append], hturn, ?_⟩
      rw [List.forall_mem_append, List.forall_mem_singleton]
      exact ⟨hafter, hu⟩

end RegisterMachine.Machine
