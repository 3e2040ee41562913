import RegisterMachine.Machine.Exec
import RegisterMachine.Proofs.Except
import RegisterMachine.Proofs.Registers.Exact

/-!
# `RegisterMachine.Proofs.Machine.Operations` — operations on registers, and on integers

An operation on a target and a source goes through four steps, and each but the
last may be where it fails (`evaluate_binary`):

    read the source        the register does not exist
    refuse a zero          the source of a division is zero
    read the target        the register does not exist
    fit the result         the exact result is not in any cell

Only the last depends on the cells.  On integers it never fails, and so an
operation is what it is on integers, with a cell to hold its result
(`evaluate_eq`).
-/

namespace RegisterMachine

variable {V : Type} [Cell V]

/-! ## Exact results -/

/-- The exact result of an operation on one number -/
def UnaryOp.apply : UnaryOp → Int → Int
  | .inc, n => n + 1
  | .dec, n => n - 1

/-- The exact result of an operation on a target and a source, a quotient rounded down -/
def BinaryOp.apply : BinaryOp → Int → Int → Int
  | .mov, _, n => n
  | .add, m, n => m + n
  | .sub, m, n => m - n
  | .mul, m, n => m * n
  | .div, m, n => m.fdiv n

theorem UnaryOp.compute?_eq (op : UnaryOp) (v : V) :
    op.compute? v = Cell.ofInt? (op.apply (Cell.toInt v)) := by
  have hone : Cell.toInt (Cell.ofWord 1 : V) = 1 := Cell.toInt_ofWord 1
  cases op with
  | inc => rw [compute?, Cell.add?_eq, hone, apply]
  | dec => rw [compute?, Cell.sub?_eq, hone, apply]

/-- On cells an operation is exact, and has no result if that is in no cell -/
theorem BinaryOp.compute?_eq {op : BinaryOp} {w : V} (hw : ¬ (op = .div ∧ Cell.toInt w = 0))
    (v : V) :
    op.compute? v w = Cell.ofInt? (op.apply (Cell.toInt v) (Cell.toInt w)) := by
  cases op with
  | mov => exact (Cell.ofInt?_toInt w).symm
  | add => exact Cell.add?_eq v w
  | sub => exact Cell.sub?_eq v w
  | mul => exact Cell.mul?_eq v w
  | div => exact Cell.div?_eq v w fun hzero => hw ⟨rfl, hzero⟩

namespace Machine

/-- The cell of an exact result, or the complaint that it does not fit -/
def hold (operation target : String) (n : Int) : Except Cause V :=
  fit operation target (Cell.ofInt? n)

/-- A number that is in a cell is held by it -/
theorem hold_toInt (operation target : String) (v : V) :
    hold operation target (Cell.toInt v) = .ok v := by
  rw [hold, Cell.ofInt?_toInt, fit]

theorem hold_eq_ok_iff {operation target : String} {n : Int} {v : V} :
    hold operation target n = .ok v ↔ Cell.toInt v = n := by
  rw [← Cell.ofInt?_eq_some_iff, hold]
  cases (Cell.ofInt? n : Option V) <;> simp [fit]

theorem hold_eq_error_iff {operation target : String} {n : Int} {c : Cause} :
    (hold operation target n : Except Cause V) = .error c ↔
      (Cell.ofInt? n : Option V) = none ∧ c = .overflow operation target := by
  rw [hold]
  cases (Cell.ofInt? n : Option V) <;> simp [fit, eq_comm]

/-! ## Operations -/

theorem evaluate_unary (op : UnaryOp) (r : Registers V) (target : String) :
    evaluate r target (.unary op) =
      r.fetch target >>= fun old => hold op.name target (op.apply (Cell.toInt old)) := by
  simp only [evaluate, UnaryOp.compute?_eq, hold]

/-- The steps of an operation on a target and a source, in their order -/
theorem evaluate_binary {op : BinaryOp} (hop : op ≠ .mov) (r : Registers V) (target : String)
    (source : Operand) :
    evaluate r target (.binary op source) =
      read r source >>= fun operand =>
        if op = .div ∧ Cell.toInt operand = 0 then .error (.divisionByZero target)
        else r.fetch target >>= fun old =>
          hold op.name target (op.apply (Cell.toInt old) (Cell.toInt operand)) := by
  have hsteps : evaluate r target (.binary op source) =
      read r source >>= fun operand =>
        if op = .div ∧ Cell.toInt operand = 0 then .error (.divisionByZero target)
        else r.fetch target >>= fun old => fit op.name target (op.compute? old operand) := by
    cases op with
    | mov => exact absurd rfl hop
    | add | sub | mul | div => rfl
  rw [hsteps]
  refine congrArg (read r source >>= ·) (funext fun operand => ?_)
  by_cases hzero : op = .div ∧ Cell.toInt operand = 0
  · rw [if_pos hzero, if_pos hzero]
  · rw [if_neg hzero, if_neg hzero]
    simp only [BinaryOp.compute?_eq hzero, hold]

theorem fetch_of_read {r : Registers V} {o : Operand} {c : Cause} (h : read r o = .error c) :
    ∃ name, r.fetch name = .error c := by
  cases o with
  | literal value => cases h
  | register name => exact ⟨name, h⟩

/-- An operation fails by a read, by a division by zero, or by a result that is in no cell -/
theorem fault_of_evaluate {r : Registers V} {target : String} {operation : Operation} {c : Cause}
    (h : evaluate r target operation = .error c) :
    (∃ name, r.fetch name = .error c) ∨ c = .divisionByZero target ∨
      ((∃ n : Int, (Cell.ofInt? n : Option V) = none) ∧ c = .overflow operation.name target) := by
  -- the steps that make the result of what is in the target
  have hlast : ∀ {name : String} {f : V → Int},
      (r.fetch target >>= fun old => (hold name target (f old) : Except Cause V)) = .error c →
      (∃ name, r.fetch name = .error c) ∨
        ((∃ n : Int, (Cell.ofInt? n : Option V) = none) ∧ c = .overflow name target) := by
    intro name f hf
    rcases Except.bind_eq_error_iff.1 hf with hf | ⟨old, _, hf⟩
    · exact .inl ⟨target, hf⟩
    · obtain ⟨hnone, hc⟩ := hold_eq_error_iff.1 hf
      exact .inr ⟨⟨_, hnone⟩, hc⟩
  match operation with
  | .unary op =>
    rw [evaluate_unary] at h
    exact (hlast h).imp_right .inr
  | .binary op source =>
    by_cases hop : op = .mov
    · subst hop
      exact .inl (fetch_of_read h)
    · rw [evaluate_binary hop] at h
      rcases Except.bind_eq_error_iff.1 h with h | ⟨operand, _, h⟩
      · exact .inl (fetch_of_read h)
      · split at h
        · exact .inr (.inl (Except.error.inj h).symm)
        · exact (hlast h).imp_right .inr

/-! ## Operations on integers -/

theorem read_exact (r : Registers V) (o : Operand) :
    read r.exact o = (read r o).map Cell.toInt := by
  cases o with
  | literal value => exact congrArg Except.ok (Cell.toInt_ofWord value).symm
  | register name => exact Registers.fetch_exact r name

theorem read_exact_of_ok {r : Registers V} {o : Operand} {v : V} (h : read r o = .ok v) :
    read r.exact o = .ok (Cell.toInt v) := by
  rw [read_exact, h]
  rfl

theorem read_exact_of_error {r : Registers V} {o : Operand} {c : Cause} (h : read r o = .error c) :
    read r.exact o = .error c := by
  rw [read_exact, h]
  rfl

/-- What is made of the content of a register has to fit, and that is all -/
theorem fetch_hold_eq (r : Registers V) (operation target : String) (f : Int → Int) :
    (r.fetch target >>= fun old => (hold operation target (f (Cell.toInt old)) : Except Cause V)) =
      (r.exact.fetch target >>= fun old =>
        (hold operation target (f (Cell.toInt old)) : Except Cause Int)) >>=
          hold operation target := by
  rw [Registers.fetch_exact]
  cases r.fetch target <;> rfl

/-- An operation does what it does on integers, and then its result has to fit -/
theorem evaluate_eq (r : Registers V) (target : String) (operation : Operation) :
    evaluate r target operation =
      evaluate r.exact target operation >>= hold operation.name target := by
  match operation with
  | .unary op =>
    rw [evaluate_unary, evaluate_unary]
    exact fetch_hold_eq r op.name target op.apply
  | .binary op source =>
    by_cases hop : op = .mov
    · subst hop
      rw [evaluate, evaluate, read_exact]
      cases read r source with
      | error c => rfl
      | ok v => exact (hold_toInt _ target v).symm
    · rw [evaluate_binary hop, evaluate_binary hop, read_exact]
      cases read r source with
      | error c => rfl
      | ok operand =>
        show (if op = .div ∧ Cell.toInt operand = 0 then Except.error _ else _) =
          (if op = .div ∧ Cell.toInt operand = 0 then Except.error _ else _) >>= _
        split
        · rfl
        · exact fetch_hold_eq r op.name target (op.apply · (Cell.toInt operand))

theorem evaluate_exact_of_ok {r : Registers V} {target : String} {operation : Operation} {v : V}
    (h : evaluate r target operation = .ok v) :
    evaluate r.exact target operation = .ok (Cell.toInt v) := by
  rw [evaluate_eq] at h
  obtain ⟨n, hn, hheld⟩ := Except.bind_eq_ok_iff.1 h
  rw [hn, hold_eq_ok_iff.1 hheld]

/-- An operation that fails fails on integers too, or it has a result there that is in no cell -/
theorem evaluate_exact_of_error {r : Registers V} {target : String} {operation : Operation}
    {c : Cause} (h : evaluate r target operation = .error c) :
    evaluate r.exact target operation = .error c ∨
      ∃ n, evaluate r.exact target operation = .ok n ∧ (Cell.ofInt? n : Option V) = none ∧
        c = .overflow operation.name target := by
  rw [evaluate_eq] at h
  rcases Except.bind_eq_error_iff.1 h with h | ⟨n, hn, hheld⟩
  · exact .inl h
  · exact .inr ⟨n, hn, hold_eq_error_iff.1 hheld⟩

end Machine

end RegisterMachine
