import RegisterMachine.Instruction.Dump
import RegisterMachine.Machine.Run

/-!
# `RegisterMachine.Transcript.Record` — what a transcript is made of, and its wording

A record says one thing that happened.  Its level tells the details of every
line and every step (`trace`) from what changes the course of a run (`debug`),
and its component tells who reports.

    component   trace          debug
    parser      lineRead       programRead
    machine     dispatched     jumped, called, returned, said, leftProgram, finished
-/

namespace RegisterMachine

namespace Transcript

/-- How much detail a record is -/
inductive Level where
  | debug
  | trace
  deriving DecidableEq

/-- How often a request has to ask for more before it is told such a record -/
def Level.verbosity : Level → Nat
  | .debug => 2
  | .trace => 3

/-- Who reports -/
inductive Component where
  | parser
  | machine
  deriving DecidableEq

/-- Something that happened -/
inductive Record where
  | lineRead (line : String) (i : Instruction)
  | programRead (instructions labels : Nat)
  | dispatched (ip : Nat) (i : Instruction) (flag : Flag)
  | jumped (condition : Condition) (target : String)
  | called (target : String) (depth : Nat)
  | returned (address : Nat)
  | said (message : String)
  | leftProgram (ip : Nat)
  | finished (steps : Nat) (value : Value)
  deriving DecidableEq

end Transcript

/-- An answer shown by its structure -/
def Value.dump : Value → String
  | .integer value => Dump.tuple "Integer" [value.text]
  | .text content => Dump.tuple "Text" [Text.quoted content]
  | .outOfBounds => "OutOfBounds"

namespace Transcript

/-! ## Columns -/

/-- The text with blanks in front, to the given width at least -/
def alignRight (width : Nat) (s : String) : String :=
  String.ofList (List.replicate (width - s.length) ' ') ++ s

/-- The text with blanks behind, to the given width at least -/
def alignLeft (width : Nat) (s : String) : String :=
  s ++ String.ofList (List.replicate (width - s.length) ' ')

/-! ## Records in words -/

namespace Record

def level : Record → Level
  | .lineRead _ _ | .dispatched _ _ _ => .trace
  | _ => .debug

def component : Record → Component
  | .lineRead _ _ | .programRead _ _ => .parser
  | _ => .machine

def message : Record → String
  | .lineRead line i => Text.quoted line ++ " -> " ++ i.dump
  | .programRead instructions labels =>
    "Parsed " ++ Decimal.text instructions ++ " instructions with " ++ Decimal.text labels
      ++ " labels"
  | .dispatched ip i flag =>
    alignRight 4 (Decimal.text ip) ++ ": " ++ alignLeft 24 i.text ++ " flag=" ++ flag.name
  | .jumped condition target => condition.name ++ " taken to " ++ Cause.named target
  | .called target depth => "call " ++ Cause.named target ++ ", depth " ++ Decimal.text depth
  | .returned address => "ret to " ++ Decimal.text address
  | .said message => "msg " ++ Text.quoted message
  | .leftProgram ip => "Instruction pointer " ++ Decimal.text ip ++ " is out of bounds"
  | .finished steps value =>
    "Finished after " ++ Decimal.text steps ++ " steps with " ++ value.dump

end Record

end Transcript

end RegisterMachine
