import RegisterMachine.Machine.State
import RegisterMachine.Program

/-!
# `RegisterMachine.Machine.Exec` — what each instruction does

An instruction leaves a state behind whether it fails or not, so that the machine
can be looked at, and even go on, after a failure.  Whoever executes one has set
`next` to the instruction behind it, and jumps, calls and returns overwrite it.

    instruction        effect
    comment, label     none
    end                none; it is the run that ends there
    operation          the target register
    comparison         the flag
    jump               `next`, one behind the label, if the condition holds
    call               the same, and one behind the call on the stack
    return             `next`, from the stack
    message            one more message, which is also the result

An operation reads its source first, then refuses a divisor of zero, then reads
its target, computes, and fails if there is no cell for the result.
-/

namespace RegisterMachine

variable {V : Type} [Cell V]

/-! ## Arithmetic -/

/-- The result of an operation on one number, if there is a cell for it -/
@[specialize] def UnaryOp.compute? : UnaryOp → V → Option V
  | .inc, v => Cell.add? v (Cell.ofWord 1)
  | .dec, v => Cell.sub? v (Cell.ofWord 1)

/-- The result of an operation on a target and a source, if there is a cell for it -/
@[specialize] def BinaryOp.compute? : BinaryOp → V → V → Option V
  | .mov, _, w => some w
  | .add, v, w => Cell.add? v w
  | .sub, v, w => Cell.sub? v w
  | .mul, v, w => Cell.mul? v w
  | .div, v, w => Cell.div? v w

namespace Machine

/-- A result, or the complaint that it does not fit -/
@[specialize] def fit (operation target : String) : Option V → Except Cause V
  | some v => .ok v
  | none => .error (.overflow operation target)

/-- The number an operand stands for -/
@[specialize] def read (registers : Registers V) : Operand → Except Cause V
  | .literal value => .ok (Cell.ofWord value)
  | .register name => registers.fetch name

/-- What an operation makes of its target -/
@[specialize] def evaluate (registers : Registers V) (target : String) :
    Operation → Except Cause V
  | .unary op => do
    let old ← registers.fetch target
    fit op.name target (op.compute? old)
  | .binary .mov source => read registers source
  | .binary op source => do
    let operand ← read registers source
    if op = .div ∧ Cell.toInt operand = 0 then
      throw (.divisionByZero target)
    let old ← registers.fetch target
    fit op.name target (op.compute? old operand)

/-! ## Execution -/

/-- What executing an instruction comes to, with the state it leaves behind -/
inductive Execution (V : Type) where
  | done (s : State V)
  | failed (cause : Cause) (s : State V)
  deriving DecidableEq

/-- Executes an instruction in a state -/
@[specialize] def exec (p : Program) (s : State V) : Instruction → Execution V
  | .comment | .label _ | .halt => .done s
  | .operate operation target =>
    match evaluate s.registers target operation with
    | .ok v => .done { s with registers := s.registers.insert target v }
    | .error c => .failed c s
  | .compare left right =>
    match read s.registers left, read s.registers right with
    | .ok l, .ok r => .done { s with flag := some (Ord.compare (Cell.toInt l) (Cell.toInt r)) }
    | .error c, _ | .ok _, .error c => .failed c s
  | .jump condition target =>
    if condition.holds s.flag then
      match p.findLabel target with
      | .ok label => .done { s with next := label + 1 }
      | .error c => .failed c s
    else .done s
  | .call target =>
    match p.findLabel target with
    | .ok label => .done { s with next := label + 1, callStack := (s.ip + 1) :: s.callStack }
    | .error c => .failed c s
  | .ret =>
    match s.callStack with
    | address :: rest => .done { s with next := address, callStack := rest }
    | [] => .failed .emptyCallStack s
  | .message template =>
    match Template.interpolate template s.registers with
    | .ok text => .done { s with output := s.output.push text, result := .text text }
    | .error c => .failed c s

end Machine

end RegisterMachine
