import RegisterMachine.Proofs.Machine.Operations
import RegisterMachine.Proofs.Machine.Turn
import RegisterMachine.Proofs.Word.Division

/-!
# `RegisterMachine.Proofs.Machine.Arithmetic` — what an operation on words comes to

More than one thing may stand against an operation.  It is refused for the first of these:

    the source does not exist            uninitialized, the source   (`evaluate_of_lacksSource`)
    a division, and the source is zero   divisionByZero              (`evaluate_of_dividesByZero`)
    the target is read and not there     uninitialized, the target   (`evaluate_of_lacksTarget`)
    the exact result is no word          overflow                    (`evaluate_of_ready`)

If nothing does, the target is set to the exact result.  That is an integer, found without a
thought of words (`Operation.result?`), and for a division it is the floor of the exact
quotient.  A quotient is no word in one case only (`evaluate_div_eq_overflow_iff`).
-/

namespace RegisterMachine

variable {V : Type} [Cell V]

/-- The number that an operand stands for; a register that does not exist stands for none -/
def Operand.value? (r : Registers V) : Operand → Option Int
  | .literal value => some value.toInt
  | .register name => (r.get? name).map Cell.toInt

/-! ## What stands against an operation -/

namespace Operation

/-- The operand beside the target, if the operation has one -/
def source? : Operation → Option Operand
  | .unary _ => none
  | .binary _ source => some source

/-- The source is a register, and does not exist -/
def LacksSource (r : Registers V) (operation : Operation) (name : String) : Prop :=
  operation.source? = some (.register name) ∧ r.get? name = none

/-- The operation is a division, and its source is zero -/
def DividesByZero (r : Registers V) (operation : Operation) : Prop :=
  ∃ source, operation = .binary .div source ∧ source.value? r = some 0

/-- The operation is no move, so that it reads its target, and the target does not exist -/
def LacksTarget (r : Registers V) (operation : Operation) (target : String) : Prop :=
  (∀ source, operation ≠ .binary .mov source) ∧ r.get? target = none

/-- The exact result of the operation, if the registers that it reads exist -/
def result? (r : Registers V) (target : String) : Operation → Option Int
  | .unary op => (Operand.value? r (.register target)).map op.apply
  | .binary .mov source => source.value? r
  | .binary op source =>
    (Operand.value? r (.register target)).bind fun m => (source.value? r).map (op.apply m)

end Operation

namespace Machine

variable {r : Registers V} {operation : Operation} {target : String}

/-! ## Operands -/

theorem read_eq_ok_iff {o : Operand} {v : V} :
    read r o = .ok v ↔ o.value? r = some (Cell.toInt v) := by
  cases o with
  | literal value =>
    rw [read, Operand.value?, Except.ok.injEq, Option.some.injEq, ← Cell.toInt_ofWord (V := V)]
    constructor
    · exact congrArg Cell.toInt
    · exact Cell.toInt_injective
  | register name =>
    rw [read, Registers.fetch_eq_ok_iff, Operand.value?]
    constructor
    · intro h
      rw [h, Option.map_some]
    · intro h
      obtain ⟨w, hw, heq⟩ := Option.map_eq_some_iff.1 h
      rw [hw, Cell.toInt_injective heq]

/-- What an operand stands for is in a cell -/
theorem exists_read {o : Operand} {n : Int} (h : o.value? r = some n) :
    ∃ v, read r o = .ok v ∧ Cell.toInt v = n := by
  cases o with
  | literal value =>
    cases h
    exact ⟨Cell.ofWord value, rfl, Cell.toInt_ofWord value⟩
  | register name =>
    obtain ⟨v, hv, hn⟩ := Option.map_eq_some_iff.1 h
    exact ⟨v, Registers.fetch_eq_ok_iff.2 hv, hn⟩

/-- A source stands for a number unless it is a register that does not exist -/
theorem exists_value {op : BinaryOp} {source : Operand}
    (h : ∀ name, ¬ (Operation.binary op source).LacksSource r name) :
    ∃ n, source.value? r = some n := by
  cases source with
  | literal value => exact ⟨_, rfl⟩
  | register name =>
    cases hv : r.get? name with
    | none => exact absurd ⟨rfl, hv⟩ (h name)
    | some v => exact ⟨Cell.toInt v, by rw [Operand.value?, hv, Option.map_some]⟩

/-! ## The first thing that stands against an operation -/

theorem evaluate_of_lacksSource {name : String} (h : operation.LacksSource r name) :
    evaluate r target operation = .error (.uninitialized name r.contents) := by
  obtain ⟨hsource, hnone⟩ := h
  cases operation with
  | unary op => cases hsource
  | binary op source =>
    cases hsource
    have hread : read r (.register name) = .error (.uninitialized name r.contents) :=
      Registers.fetch_eq_error_iff.2 ⟨hnone, rfl⟩
    by_cases hop : op = .mov
    · subst hop
      exact hread
    · rw [evaluate_binary hop, hread]
      rfl

theorem evaluate_of_dividesByZero (h : operation.DividesByZero r) :
    evaluate r target operation = .error (.divisionByZero target) := by
  obtain ⟨source, rfl, hzero⟩ := h
  obtain ⟨v, hread, hv⟩ := exists_read hzero
  rw [evaluate_binary (by decide), hread]
  exact if_pos ⟨rfl, hv⟩

/-- Behind its source and the test for zero an operation goes on to its target -/
theorem evaluate_of_source {op : BinaryOp} (hop : op ≠ .mov) {source : Operand} {n : Int}
    (hn : source.value? r = some n) (hzero : ¬ (Operation.binary op source).DividesByZero r) :
    evaluate r target (.binary op source) =
      r.fetch target >>= fun old => hold op.name target (op.apply (Cell.toInt old) n) := by
  obtain ⟨v, hread, rfl⟩ := exists_read hn
  rw [evaluate_binary hop, hread]
  refine if_neg ?_
  rintro ⟨rfl, hv⟩
  rw [hv] at hn
  exact hzero ⟨source, rfl, hn⟩

theorem evaluate_of_lacksTarget (hsource : ∀ name, ¬ operation.LacksSource r name)
    (hzero : ¬ operation.DividesByZero r) (h : operation.LacksTarget r target) :
    evaluate r target operation = .error (.uninitialized target r.contents) := by
  obtain ⟨hmove, hnone⟩ := h
  have hfetch : r.fetch target = .error (.uninitialized target r.contents) :=
    Registers.fetch_eq_error_iff.2 ⟨hnone, rfl⟩
  cases operation with
  | unary op =>
    rw [evaluate_unary, hfetch]
    rfl
  | binary op source =>
    have hop : op ≠ .mov := by
      rintro rfl
      exact hmove source rfl
    obtain ⟨n, hn⟩ := exists_value hsource
    rw [evaluate_of_source hop hn hzero, hfetch]
    rfl

/-- If nothing stands against an operation, all that is left is to hold its exact result -/
theorem evaluate_of_ready (hsource : ∀ name, ¬ operation.LacksSource r name)
    (hzero : ¬ operation.DividesByZero r) (htarget : ¬ operation.LacksTarget r target) :
    ∃ n, operation.result? r target = some n ∧
      evaluate r target operation = hold operation.name target n := by
  -- an operation that is no move finds its target
  have hfound : (∀ source, operation ≠ .binary .mov source) → ∃ old, r.get? target = some old := by
    intro hmove
    cases hget : r.get? target with
    | none => exact absurd ⟨hmove, hget⟩ htarget
    | some old => exact ⟨old, rfl⟩
  have hvalue : ∀ {old : V}, r.get? target = some old →
      Operand.value? r (.register target) = some (Cell.toInt old) := by
    intro old hget
    rw [Operand.value?, hget, Option.map_some]
  cases operation with
  | unary op =>
    obtain ⟨old, hget⟩ := hfound (fun _ => nofun)
    refine ⟨op.apply (Cell.toInt old), ?_, ?_⟩
    · rw [Operation.result?, hvalue hget, Option.map_some]
    · rw [evaluate_unary, Registers.fetch_eq_ok_iff.2 hget]
      rfl
  | binary op source =>
    obtain ⟨n, hn⟩ := exists_value hsource
    by_cases hop : op = .mov
    · subst hop
      obtain ⟨v, hread, rfl⟩ := exists_read hn
      exact ⟨Cell.toInt v, hn, hread.trans (hold_toInt _ target v).symm⟩
    · obtain ⟨old, hget⟩ := hfound (by rintro _ ⟨⟩; exact hop rfl)
      refine ⟨op.apply (Cell.toInt old) n, ?_, ?_⟩
      · cases op with
        | mov => exact absurd rfl hop
        | add | sub | mul | div =>
          rw [Operation.result?, hvalue hget, hn]
          · rfl
          · exact hop
      · rw [evaluate_of_source hop hn hzero, Registers.fetch_eq_ok_iff.2 hget]
        rfl

/-! ## Operations on words -/

theorem hold_of_fits {name : String} {n : Int} (h : Word.Fits n) :
    ∃ v : Word, v.toInt = n ∧ hold name target n = .ok v := by
  have hv := Word.toInt_ofInt h
  exact ⟨Int64.ofInt n, hv, hold_eq_ok_iff.2 hv⟩

theorem hold_eq_overflow_iff {name : String} {n : Int} :
    (hold name target n : Except Cause Word) = .error (.overflow name target) ↔ ¬ Word.Fits n := by
  rw [hold_eq_error_iff, and_iff_left rfl]
  exact Word.ofInt?_eq_none_iff

/-- A quotient overflows in one case only -/
theorem evaluate_div_eq_overflow_iff {r : Registers Word} {source : Operand} :
    evaluate r target (.binary .div source) = .error (.overflow "div" target) ↔
      r.get? target = some Int64.minValue ∧ source.value? r = some (-1) := by
  constructor
  · intro h
    rw [evaluate_binary (by decide)] at h
    rcases Except.bind_eq_error_iff.1 h with h | ⟨w, hread, h⟩
    · obtain ⟨name, hfetch⟩ := fetch_of_read h
      cases (Registers.fetch_eq_error_iff.1 hfetch).2
    split at h
    · cases h
    rename_i hzero
    rcases Except.bind_eq_error_iff.1 h with h | ⟨old, hfetch, h⟩
    · cases (Registers.fetch_eq_error_iff.1 h).2
    have hw : w.toInt ≠ 0 := fun hw => hzero ⟨rfl, hw⟩
    have hfits := hold_eq_overflow_iff.1 h
    have hpair := of_not_not (mt (Word.fits_fdiv_iff (Word.fits_toInt old) hw).2 hfits)
    obtain ⟨rfl, rfl⟩ := Word.toInt_eq_pair_iff.1 hpair
    exact ⟨Registers.fetch_eq_ok_iff.1 hfetch, read_eq_ok_iff.1 hread⟩
  · rintro ⟨hget, hn⟩
    have hzero : ¬ (Operation.binary .div source).DividesByZero r := by
      rintro ⟨_, ⟨⟩, h⟩
      rw [hn] at h
      cases h
    rw [evaluate_of_source (by decide) hn hzero, Registers.fetch_eq_ok_iff.2 hget]
    have hfits : ¬ Word.Fits (BinaryOp.div.apply Int64.minValue.toInt (-1)) := by decide
    exact hold_eq_overflow_iff.2 hfits

/-! ## Execution -/

variable {p : Program} {s : State Word}

theorem exec_operate_of_ok {v : Word} (h : evaluate s.registers target operation = .ok v) :
    exec p s (.operate operation target) =
      .done { s with registers := s.registers.insert target v } :=
  exec_eq_done_iff.2 (.operate h)

theorem exec_operate_of_error {c : Cause} (h : evaluate s.registers target operation = .error c) :
    exec p s (.operate operation target) = .failed c s :=
  exec_eq_failed_iff.2 ⟨.operate h, rfl⟩

theorem exec_operate_eq_failed_iff {c : Cause} :
    exec p s (.operate operation target) = .failed c s ↔
      evaluate s.registers target operation = .error c := by
  refine ⟨?_, exec_operate_of_error⟩
  intro h
  obtain ⟨hfault, _⟩ := exec_eq_failed_iff.1 h
  cases hfault with
  | operate hv => exact hv

/-- In every state an operation is refused for a source that does not exist; else for a zero that
it divides by, whether its target exists or not; else for a target that it reads and that does not
exist; and else for an exact result that is no word.  If nothing stands against it, it writes its
exact result to the target and does nothing else.  For a division, where the exact result is the
floor of the quotient, the last refusal is for the least word divided by -1 only; and on the way to
the quotient no operation on words is ever stuck -/
theorem operation_exact (p : Program) (s : State Word) (operation : Operation) (target : String) :
    (∀ name, operation.LacksSource s.registers name →
      exec p s (.operate operation target) =
        .failed (.uninitialized name s.registers.contents) s) ∧
    ((∀ name, ¬ operation.LacksSource s.registers name) →
      (operation.DividesByZero s.registers →
        exec p s (.operate operation target) = .failed (.divisionByZero target) s) ∧
      (¬ operation.DividesByZero s.registers →
        (operation.LacksTarget s.registers target →
          exec p s (.operate operation target) =
            .failed (.uninitialized target s.registers.contents) s) ∧
        (¬ operation.LacksTarget s.registers target →
          ∃ n, operation.result? s.registers target = some n ∧
            (exec p s (.operate operation target) = .failed (.overflow operation.name target) s ↔
              ¬ Word.Fits n) ∧
            (Word.Fits n → ∃ v : Word, v.toInt = n ∧
              exec p s (.operate operation target) =
                .done { s with registers := s.registers.insert target v })))) ∧
    (∀ m n : Int, BinaryOp.div.apply m n = ⌊(m : ℚ) / n⌋) ∧
    (∀ source, exec p s (.operate (.binary .div source) target) =
        .failed (.overflow "div" target) s ↔
      s.registers.get? target = some Int64.minValue ∧ source.value? s.registers = some (-1)) ∧
    ∀ a b : Word, (b ≠ 0 → (Word.fdiv? a b = none ↔ a = Int64.minValue ∧ b = -1)) ∧
      Word.fdivSteps a b = .ok (Word.fdiv? a b) := by
  refine ⟨?_, ?_, fdiv_eq_floor, ?_, ?_⟩
  · intro name h
    exact exec_operate_of_error (evaluate_of_lacksSource h)
  · intro hsource
    refine ⟨?_, ?_⟩
    · intro h
      exact exec_operate_of_error (evaluate_of_dividesByZero h)
    intro hzero
    refine ⟨?_, ?_⟩
    · intro h
      exact exec_operate_of_error (evaluate_of_lacksTarget hsource hzero h)
    intro htarget
    obtain ⟨n, hn, heval⟩ := evaluate_of_ready hsource hzero htarget
    refine ⟨n, hn, ?_, ?_⟩
    · rw [exec_operate_eq_failed_iff, heval, hold_eq_overflow_iff]
    · intro hfits
      obtain ⟨v, hv, hheld⟩ := hold_of_fits hfits
      exact ⟨v, hv, exec_operate_of_ok (heval.trans hheld)⟩
  · intro source
    rw [exec_operate_eq_failed_iff, evaluate_div_eq_overflow_iff]
  · intro a b
    exact ⟨Word.fdiv?_eq_none_iff, Word.fdivSteps_eq a b⟩

end Machine

end RegisterMachine
