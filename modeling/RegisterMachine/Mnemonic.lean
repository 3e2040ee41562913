import RegisterMachine.Line.Arguments

/-!
# `RegisterMachine.Mnemonic` — the opcodes and the arguments they take

A mnemonic is an instruction without its arguments.  The table `Mnemonic.all`
holds each under the name it is written with; `msg` is not among them, because
a template is not made of tokens.

    mnemonic                      arguments
    mov add sub mul div           register , operand
    inc dec                       register
    cmp                           operand , operand
    jmp je jne jge jg jle jl      label
    call                          label
    ret end                       none
-/

namespace RegisterMachine

/-- An instruction without its arguments -/
inductive Mnemonic where
  | binary (op : BinaryOp)
  | unary (op : UnaryOp)
  | compare
  | jump (condition : Condition)
  | call
  | ret
  | halt
  deriving DecidableEq

namespace Mnemonic

/-- How a mnemonic is written -/
def name : Mnemonic → String
  | .binary op => op.name
  | .unary op => op.name
  | .compare => "cmp"
  | .jump condition => condition.name
  | .call => "call"
  | .ret => "ret"
  | .halt => "end"

/-- All mnemonics -/
def all : List Mnemonic :=
  BinaryOp.all.map .binary ++ UnaryOp.all.map .unary ++ [.compare]
    ++ Condition.all.map .jump ++ [.call, .ret, .halt]

/-- The mnemonic of a name, if it is one -/
def ofName? (s : String) : Option Mnemonic :=
  all.find? fun m => m.name == s

theorem mem_all (m : Mnemonic) : m ∈ all := by
  cases m with
  | binary op => simp [all, BinaryOp.mem_all op]
  | unary op => simp [all, UnaryOp.mem_all op]
  | jump condition => simp [all, Condition.mem_all condition]
  | _ => decide

/-- Reads the arguments of a mnemonic -/
def read : Mnemonic → Arguments.Reader Instruction
  | .binary op => do
    let target ← Arguments.name .targetRegister
    Arguments.separator
    let source ← Arguments.operand
    return .operate (.binary op source) target
  | .unary op => do
    let target ← Arguments.name .targetRegister
    return .operate (.unary op) target
  | .compare => do
    let left ← Arguments.operand
    Arguments.separator
    let right ← Arguments.operand
    return .compare left right
  | .jump condition => do
    let target ← Arguments.name .label
    return .jump condition target
  | .call => do
    let target ← Arguments.name .label
    return .call target
  | .ret => return .ret
  | .halt => return .halt

end Mnemonic

end RegisterMachine
