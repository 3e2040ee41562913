import RegisterMachine.Proofs.Machine.Results
import RegisterMachine.Proofs.Program.Extension

/-!
# `RegisterMachine.Proofs.Machine.Extension` — runs of a program with more instructions behind

A run can notice what stands behind the last instruction of a program in two ways
only: it gets there, or it goes to a label that is missing.  The first makes it end
out of bounds, the second makes it fail.  A run that comes to anything else
(`Inner`) takes the same turns in a longer program:

    turn                      in the longer program
    effect                    the same effect, to the same labels
    fault                     the same fault, unless a label is missing
    `end`, or cut off         the same
    out of bounds             goes on with what is there now
-/

namespace RegisterMachine

namespace Machine

variable {V : Type} [Cell V] {p q : Program} {s t : State V} {i : Instruction}

/-- A result for which a run needs nothing that is not in the program -/
inductive Inner : Except Diagnostic (Outcome V) → Prop
  | ok {o : Outcome V} : o.value ≠ .outOfBounds → Inner (.ok o)
  | error {d : Diagnostic} : d.kind ≠ .unknownLabel → Inner (.error d)

/-! ## One turn -/

omit [Cell V] in
theorem pending_extend (h : p.Extends q) (hi : head p s = .pending i) : head q s = .pending i := by
  obtain ⟨hget, hne⟩ := head_eq_pending_iff.1 hi
  exact head_eq_pending_iff.2 ⟨h.get? hget, hne⟩

omit [Cell V] in
/-- Where an instruction is pending is known in the longer program as well -/
theorem span?_extend (h : p.Extends q) (hi : head p s = .pending i) :
    q.span? s.ip = p.span? s.ip :=
  h.span? (Program.lt_size_of_get? (head_eq_pending_iff.1 hi).1)

theorem Effect.extend (h : p.Extends q) (he : Effect p s i t) : Effect q s i t := by
  cases he with
  | comment => exact .comment
  | label => exact .label
  | halt => exact .halt
  | operate hv => exact .operate hv
  | compare hl hr => exact .compare hl hr
  | pass hc => exact .pass hc
  | jump hc hl => exact .jump hc (h.label? hl)
  | call hl => exact .call (h.label? hl)
  | ret hs => exact .ret hs
  | message ht => exact .message ht

theorem Fault.extend {c : Cause} (hf : Fault p s i c) (hc : c.kind ≠ .unknownLabel) :
    Fault q s i c := by
  cases hf with
  | operate hv => exact .operate hv
  | compareLeft hl => exact .compareLeft hl
  | compareRight hl hr => exact .compareRight hl hr
  | jump | call => exact absurd rfl hc
  | ret hs => exact .ret hs
  | message ht => exact .message ht

theorem Step.extend (h : p.Extends q) (hs : Step p s t) : Step q s t := by
  obtain ⟨hi, hd⟩ := hs
  obtain ⟨u, hu, rfl⟩ := dispatch_eq_ok_iff.1 hd
  exact .mk (pending_extend h hi) (dispatch_eq_ok_iff.2 ⟨u, hu.extend h, rfl⟩)

/-- The last turn of a run is the last one in the longer program, if the result is an inner one -/
theorem Stop.extend (h : p.Extends q) {r : Except Diagnostic (Outcome V)} (hs : Stop p s r)
    (hr : Inner r) : Stop q s r := by
  cases hs with
  | finished ho =>
    cases hr with
    | ok hvalue =>
      rcases head_eq_finished_iff.1 ho with ⟨_, rfl⟩ | ⟨hhalt, rfl⟩
      · exact absurd rfl hvalue
      · exact .finished (head_eq_finished_iff.2 (.inr ⟨h.get? hhalt, rfl⟩))
  | failed hi hd =>
    cases hr with
    | error hkind =>
      obtain ⟨c, hc, rfl⟩ := dispatch_eq_error_iff.1 hd
      refine .failed (pending_extend h hi) (dispatch_eq_error_iff.2 ⟨c, hc.extend hkind, ?_⟩)
      rw [span?_extend h hi]

/-! ## Runs -/

theorem Steps.extend (h : p.Extends q) {n : Nat} (hs : Steps p n s t) : Steps q n s t := by
  induction hs with
  | refl s => exact .refl s
  | step hturn _ ih => exact .step (hturn.extend h) ih

theorem ComesTo.extend (h : p.Extends q) {limit : Option Nat} {r : Except Diagnostic (Outcome V)}
    (hr : ComesTo p limit s r) (hinner : Inner r) : ComesTo q limit s r := by
  cases hr with
  | ended he hm =>
    obtain ⟨t, hs, hstop⟩ := he
    exact .ended ⟨t, hs.extend h, hstop.extend h hinner⟩ hm
  | @cutOff m t i hm hs hi =>
    have hcut : Machine.cutOff p m t = Machine.cutOff q m t := by
      rw [Machine.cutOff, Machine.cutOff, span?_extend h hi]
    rw [hcut]
    exact .cutOff hm (hs.extend h) (pending_extend h hi)

end Machine

namespace Program

open Machine

theorem Extends.run_eq {p q : Program} (h : p.Extends q) {limit : Option Nat}
    {r : Except Diagnostic (Outcome Word)} (hr : p.run limit = some r) (hinner : Inner r) :
    q.run limit = some r :=
  run_eq_some_iff.2 ((run_eq_some_iff.1 hr).extend h hinner)

/-- Source text behind a program cannot change a run that never needed it: one that ends, but not
out of bounds, ends with the same outcome, and one that fails, but not for want of a label, fails
with the same diagnostic at the same place -/
theorem run_append {s t : String} {p q : Program} (hp : Program.parse s = .ok p)
    (hq : Program.parse (s ++ "\n" ++ t) = .ok q) (limit : Option Nat) :
    (∀ o : Outcome Word, p.run limit = some (.ok o) → o.value ≠ .outOfBounds →
      q.run limit = some (.ok o)) ∧
    ∀ d : Diagnostic, p.run limit = some (.error d) → d.kind ≠ .unknownLabel →
      q.run limit = some (.error d) := by
  have h := extends_of_parse hp hq
  exact ⟨fun _ ho hvalue => h.run_eq ho (.ok hvalue), fun _ hd hkind => h.run_eq hd (.error hkind)⟩

/-- A jump that is not taken may go to a label which is only there in the longer program; and both
programs are cut off at the jump if nothing may be dispatched -/
theorem run_append_untaken :
    ∃ p q : Program, Program.parse "jne x\nend" = .ok p ∧
      Program.parse ("jne x\nend" ++ "\n" ++ "x:") = .ok q ∧
      p.run (some 1) = some (.ok ⟨.noMessage, .empty, #[], 1⟩) ∧
      q.run (some 1) = some (.ok ⟨.noMessage, .empty, #[], 1⟩) ∧
      p.run (some 0) = some (.error ((Cause.stepLimit 0).diagnostic (some ⟨0, 5⟩))) ∧
      q.run (some 0) = some (.error ((Cause.stepLimit 0).diagnostic (some ⟨0, 5⟩))) := by
  have hp : Program.parse "jne x\nend" = .ok
    ⟨#[.jump .notEqual "x", .halt], #[⟨0, 5⟩, ⟨6, 9⟩], [], .inr rfl, rfl, by decide⟩ := by
    with_unfolding_all rfl
  have hq : Program.parse ("jne x\nend" ++ "\n" ++ "x:") = .ok
    ⟨#[.jump .notEqual "x", .halt, .label "x"], #[⟨0, 5⟩, ⟨6, 9⟩, ⟨10, 12⟩], [("x", 2)], .inr rfl,
      rfl, by decide⟩ := by
    with_unfolding_all rfl
  refine ⟨_, _, hp, hq, by decide +kernel, ?_, by decide +kernel, ?_⟩
  · exact (run_append hp hq (some 1)).1 _ (by decide +kernel) (by decide)
  · exact (run_append hp hq (some 0)).2 _ (by decide +kernel) (by decide)

end Program

end RegisterMachine
