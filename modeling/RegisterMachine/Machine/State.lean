import RegisterMachine.Flag
import RegisterMachine.Registers

/-!
# `RegisterMachine.Machine.State` — the state of the machine and the outcome of a run

The state is all that an instruction can read or change, and a count of the
instructions executed.  Return addresses are stacked with the latest in front.
The result is what the run would answer if it ended now: the last message, or
`Value.noMessage` before the first.  An outcome is what is left of the state when a
run has ended.

States are over any `Cell`; see `RegisterMachine.Word`.
-/

namespace RegisterMachine

/-- What a run answers -/
inductive Value where
  | integer (value : Word)
  | text (content : String)
  /-- The run has passed the last instruction without reaching an end -/
  | outOfBounds
  deriving DecidableEq

namespace Value

/-- The answer of a run without messages -/
def noMessage : Value :=
  .integer (-1)

instance : Inhabited Value :=
  ⟨noMessage⟩

/-- An answer in words, the one out of bounds as if there had been no message -/
def display : Value → String
  | .integer value => value.text
  | .text content => content
  | .outOfBounds => (-1 : Word).text

end Value

/-- The state of the machine -/
structure State (V : Type) where
  /-- The index of the instruction to execute -/
  ip : Nat
  /-- The index of the instruction to execute after it -/
  next : Nat
  flag : Flag
  registers : Registers V
  callStack : List Nat
  result : Value
  output : Array String
  steps : Nat
  deriving DecidableEq

/-- What is left of a run that has ended -/
structure Outcome (V : Type) where
  value : Value
  registers : Registers V
  output : Array String
  steps : Nat
  deriving DecidableEq

namespace State

variable {V : Type}

/-- The state in which every run starts -/
def initial : State V where
  ip := 0
  next := 1
  flag := none
  registers := .empty
  callStack := []
  result := .noMessage
  output := #[]
  steps := 0

instance : Inhabited (State V) :=
  ⟨initial⟩

/-- The outcome of a run that ends in this state -/
def outcome (s : State V) : Outcome V where
  value := s.result
  registers := s.registers
  output := s.output
  steps := s.steps

end State

end RegisterMachine
