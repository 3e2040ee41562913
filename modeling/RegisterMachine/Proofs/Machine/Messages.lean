import RegisterMachine.Proofs.Machine.Control
import RegisterMachine.Proofs.Machine.Trace

/-!
# `RegisterMachine.Proofs.Machine.Messages` — the messages of a run, and what it answers

Only a message touches the output and the result, and it touches both:

    turn           output                     result
    message        one more text behind it    that text
    all others     the same                   the same

So along a run the output is what its messages have said, each with the registers of its
own turn (`Trace.renderings`), and the result is the last of it (`Value.last`).  A run
that ends at an `end` answers with the result.  One that ends behind the last instruction
answers that it does, and then the last message is only in the output.
-/

namespace RegisterMachine

/-- The answer of a run that has put out these messages and ends at an `end` -/
def Value.last (output : Array String) : Value :=
  match output.back? with
  | some content => .text content
  | none => .noMessage

theorem Value.last_push (output : Array String) (content : String) :
    last (output.push content) = .text content := by
  rw [last, Array.back?_push]

theorem Value.last_ne_outOfBounds (output : Array String) : last output ≠ .outOfBounds := by
  unfold last
  split <;> exact nofun

namespace Machine

variable {V : Type} [Cell V] {p : Program} {s t : State V}

/-- What the template of a message came to in the turn that executed it -/
def Turn.rendering? (turn : Turn V) : Option (Except Cause String) :=
  match turn.instruction with
  | .message template => some (Template.interpolate template turn.state.registers)
  | _ => none

/-! ## One turn -/

/-- What a turn does to the output and the result -/
theorem output_of_dispatch {i : Instruction} (h : dispatch p s i = .ok t) :
    (∃ text, Turn.rendering? ⟨s, i⟩ = some (.ok text) ∧ t.output = s.output.push text ∧
      t.result = .text text) ∨
    (Turn.rendering? ⟨s, i⟩ = none ∧ t.output = s.output ∧ t.result = s.result) := by
  obtain ⟨u, hu, rfl⟩ := dispatch_eq_ok_iff.1 h
  cases hu with
  | message htext => exact .inl ⟨_, congrArg some htext, rfl, rfl⟩
  | comment | label | halt | operate | compare | pass | jump | call | ret =>
    exact .inr ⟨rfl, rfl, rfl⟩

theorem result_eq_last_of_step (h : Step p s t) (hs : s.result = .last s.output) :
    t.result = .last t.output := by
  obtain ⟨_, hd⟩ := h
  rcases output_of_dispatch hd with ⟨text, _, houtput, hresult⟩ | ⟨_, houtput, hresult⟩
  · rw [houtput, hresult, Value.last_push]
  · rw [houtput, hresult, hs]

/-! ## Runs -/

/-- The output grows by what the messages among the turns have said, in their order -/
theorem Trace.renderings {turns : List (Turn V)} (h : Trace p s turns t) :
    s.output.toList.map .ok ++ turns.filterMap Turn.rendering? = t.output.toList.map .ok := by
  induction h with
  | start => rw [List.filterMap_nil, List.append_nil]
  | turn _ _ hd ih =>
    rw [List.filterMap_append, ← List.append_assoc, ih]
    rcases output_of_dispatch hd with ⟨text, hsaid, houtput, _⟩ | ⟨hnone, houtput, _⟩
    · rw [houtput, Array.toList_push, List.map_append, List.filterMap_cons_some hsaid]
      rfl
    · rw [houtput, List.filterMap_cons_none hnone, List.filterMap_nil, List.append_nil]

omit [Cell V] in
/-- A run that has finished is behind the last instruction or answers with its last message -/
theorem value_of_finished {o : Outcome V} (h : head p s = .finished o) (hs : Inside p s)
    (hresult : s.result = .last s.output) :
    o.output = s.output ∧ (o.value = .outOfBounds ↔ s.ip = p.size) ∧
      (o.value ≠ .outOfBounds → o.value = .last o.output) := by
  rcases head_eq_finished_iff.1 h with ⟨hnone, rfl⟩ | ⟨hhalt, rfl⟩
  · have hip : s.ip = p.size := Nat.le_antisymm hs.ip_le (Program.get?_eq_none_iff.1 hnone)
    exact ⟨rfl, iff_of_true rfl hip, fun hvalue => absurd rfl hvalue⟩
  · have hvalue : s.outcome.value = .last s.output := hresult
    have hne : s.outcome.value ≠ .outOfBounds := hvalue ▸ Value.last_ne_outOfBounds s.output
    have hlt := Program.lt_size_of_get? hhalt
    exact ⟨rfl, iff_of_false hne (Nat.ne_of_lt hlt), fun _ => hvalue⟩

/-- A run that ends inside the program answers with its last message -/
theorem ComesTo.value_eq_last {limit : Option Nat} {o : Outcome V}
    (h : ComesTo p limit .initial (.ok o)) (hvalue : o.value ≠ .outOfBounds) :
    o.value = .last o.output := by
  cases h with
  | ended he _ =>
    obtain ⟨s, hs, hstop⟩ := he
    have hinside := hs.preserves (fun h hs => hs.step h) (inside_initial p)
    have hresult : s.result = .last s.output := hs.preserves result_eq_last_of_step rfl
    cases hstop with
    | finished hf => exact (value_of_finished hf hinside hresult).2.2 hvalue

end Machine

open Machine

/-- The answer of a run and its messages always agree.  At the start of every turn the output is
what the messages executed so far have come to, in their order and each with the registers of its
own turn, and the result is the last of them, or that there was none.  So a run that ends answers
that it is out of bounds exactly if it has passed the last instruction, and otherwise with the last
message of its output, or that there was none -/
theorem Program.output_exact (p : Program) :
    (∀ {s : State Word} {turns : List (Turn Word)}, Trace p .initial turns s →
      turns.filterMap Turn.rendering? = s.output.toList.map .ok ∧ s.result = .last s.output) ∧
    ∀ (limit : Option Nat) (o : Outcome Word), p.run limit = some (.ok o) →
      ∃ (turns : List (Turn Word)) (s : State Word), Trace p .initial turns s ∧
        turns.length = o.steps ∧ head p s = .finished o ∧ o.output = s.output ∧
        (o.value = .outOfBounds ↔ s.ip = p.size) ∧
        (o.value ≠ .outOfBounds → o.value = .last o.output) := by
  constructor
  · intro s turns htrace
    exact ⟨htrace.renderings, htrace.steps.preserves result_eq_last_of_step rfl⟩
  · intro limit o ho
    cases run_eq_some_iff.1 ho with
    | @ended n _ he _ =>
      obtain ⟨s, hs, hstop⟩ := he
      have hsteps : o.steps = n := (Ends.steps_eq ⟨s, hs, hstop⟩).trans (Nat.zero_add n)
      obtain ⟨turns, hlength, htrace⟩ := steps_iff_trace.1 hs
      have hinside := hs.preserves (fun h hs => hs.step h) (inside_initial p)
      have hresult : s.result = .last s.output := hs.preserves result_eq_last_of_step rfl
      cases hstop with
      | finished hf =>
        exact ⟨turns, s, htrace, hlength.trans hsteps.symm, hf,
          value_of_finished hf hinside hresult⟩

end RegisterMachine
