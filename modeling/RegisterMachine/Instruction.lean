import RegisterMachine.Flag
import RegisterMachine.Word

/-!
# `RegisterMachine.Instruction` — the instructions and their written form

Every line of a program is one instruction; a line that is blank or holds only
a comment is the instruction `comment`, so that the index of an instruction is
the number of its line.  Registers and labels are named by any string here.
Which names can be written in a program is a matter of the tokens.

The written form (`text`) is what the parser reads: opcode, a blank, operands
with a comma and a blank between them.  A message is written with its template
as it stands.
-/

namespace RegisterMachine

/-- Where an instruction takes a number from -/
inductive Operand where
  | literal (value : Word)
  | register (name : String)
  deriving DecidableEq

/-- The operations on a target alone -/
inductive UnaryOp where
  | inc
  | dec
  deriving DecidableEq

/-- The operations on a target and a source -/
inductive BinaryOp where
  | mov
  | add
  | sub
  | mul
  | div
  deriving DecidableEq

/-- What is done to a target register -/
inductive Operation where
  | unary (op : UnaryOp)
  | binary (op : BinaryOp) (source : Operand)
  deriving DecidableEq

/-- One line of a program -/
inductive Instruction where
  /-- Nothing to do: a blank line or one with a comment only -/
  | comment
  | label (name : String)
  | operate (operation : Operation) (target : String)
  | compare (left right : Operand)
  | jump (condition : Condition) (target : String)
  | call (target : String)
  | ret
  /-- The end of the run -/
  | halt
  | message (template : String)
  deriving DecidableEq, Inhabited

/-! ## Opcodes -/

def UnaryOp.all : List UnaryOp := [.inc, .dec]

def UnaryOp.name : UnaryOp → String
  | .inc => "inc"
  | .dec => "dec"

def BinaryOp.all : List BinaryOp := [.mov, .add, .sub, .mul, .div]

def BinaryOp.name : BinaryOp → String
  | .mov => "mov"
  | .add => "add"
  | .sub => "sub"
  | .mul => "mul"
  | .div => "div"

/-- The opcode of an operation -/
def Operation.name : Operation → String
  | .unary op => op.name
  | .binary op _ => op.name

theorem UnaryOp.mem_all (op : UnaryOp) : op ∈ all := by
  cases op <;> decide

theorem BinaryOp.mem_all (op : BinaryOp) : op ∈ all := by
  cases op <;> decide

/-! ## The written form -/

def Operand.text : Operand → String
  | .literal value => value.text
  | .register name => name

def Instruction.text : Instruction → String
  | .comment => ";"
  | .label name => name ++ ":"
  | .operate (.unary op) target => op.name ++ " " ++ target
  | .operate (.binary op source) target => op.name ++ " " ++ target ++ ", " ++ source.text
  | .compare left right => "cmp " ++ left.text ++ ", " ++ right.text
  | .jump condition target => condition.name ++ " " ++ target
  | .call target => "call " ++ target
  | .ret => "ret"
  | .halt => "end"
  | .message template => "msg " ++ template

end RegisterMachine
