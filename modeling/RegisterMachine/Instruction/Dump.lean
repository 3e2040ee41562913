import RegisterMachine.Instruction
import RegisterMachine.Text.Quoted

/-!
# `RegisterMachine.Instruction.Dump` — an instruction shown by its structure

A transcript shows what the parser made of a line not in the form that a
program is written in, but by naming each part: an alternative by its name,
with unnamed parts between parentheses and named ones between braces, and every
text in quotes.  So a label called `end` and the instruction `end` look
different, and so do the register `a` and a template `a`.
-/

namespace RegisterMachine

namespace Dump

/-- An alternative with its unnamed parts -/
def tuple (name : String) (parts : List String) : String :=
  name ++ "(" ++ String.intercalate ", " parts ++ ")"

/-- An alternative with its named parts -/
def record (name : String) (fields : List (String × String)) : String :=
  name ++ " \x7b " ++ String.intercalate ", " (fields.map fun (f, v) => f ++ ": " ++ v) ++ " \x7d"

end Dump

open Dump
open Text (quoted)

def Operand.dump : Operand → String
  | .literal value => tuple "Literal" [value.text]
  | .register name => tuple "Register" [quoted name]

def Operation.dump : Operation → String
  | .unary .inc => "Inc"
  | .unary .dec => "Dec"
  | .binary .mov source => tuple "Mov" [source.dump]
  | .binary .add source => tuple "Add" [source.dump]
  | .binary .sub source => tuple "Sub" [source.dump]
  | .binary .mul source => tuple "Mul" [source.dump]
  | .binary .div source => tuple "Div" [source.dump]

def Condition.dump : Condition → String
  | .always => "Jmp"
  | .equal => "Je"
  | .notEqual => "Jne"
  | .greaterOrEqual => "Jge"
  | .greater => "Jg"
  | .lessOrEqual => "Jle"
  | .less => "Jl"

def Instruction.dump : Instruction → String
  | .comment => "Comment"
  | .label name => record "Label" [("name", quoted name)]
  | .operate operation target =>
    record "RegisterOp" [("op", operation.dump), ("target", quoted target)]
  | .compare left right => record "Compare" [("left", left.dump), ("right", right.dump)]
  | .jump condition target =>
    record "Jump" [("kind", condition.dump), ("target", quoted target)]
  | .call target => record "Call" [("target", quoted target)]
  | .ret => "Return"
  | .halt => "End"
  | .message template => record "Message" [("template", quoted template)]

end RegisterMachine
