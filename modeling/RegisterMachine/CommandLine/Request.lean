import RegisterMachine.Decimal
import RegisterMachine.Machine.Run

/-!
# `RegisterMachine.CommandLine.Request` — what the arguments of the program ask for

The arguments are read from the left to the right.

    option                    effect
    -r, --registers           the registers are printed after the run
    -a, --all-messages        all messages are printed, not only the last
    -v, --verbose             more is said about the run; may be repeated
    --max-steps N             the step limit; also --max-steps=N
    --no-step-limit           no step limit; not together with --max-steps
    -V, --version             asks for the version
    -h, --help                asks for help
    --                        what follows is no option

Anything else is the file, which has to be there once.  A lone hyphen is a file.
Short options may share a hyphen.  But for `-v` no option may be repeated.

The first argument that is wrong, or asks for version or help, decides, and
nothing behind it is looked at.  Only when all have been read is it asked
whether a file is missing or both limits were given.
-/

namespace RegisterMachine.CommandLine

/-- How a file is to be run -/
structure Options where
  file : String
  limit : Option Nat
  registers : Bool
  allMessages : Bool
  verbosity : Nat
  deriving DecidableEq

/-- What the arguments ask for -/
inductive Request where
  | run (options : Options)
  | version
  | help
  /-- The arguments make no sense -/
  | misuse
  deriving DecidableEq

/-- The arguments read so far -/
structure Draft where
  file : Option String
  maxSteps : Option Nat
  noStepLimit : Bool
  registers : Bool
  allMessages : Bool
  verbosity : Nat

namespace Draft

/-- Nothing read yet -/
def empty : Draft :=
  ⟨none, none, false, false, false, 0⟩

/-! ## One argument -/

/-- What reading an argument comes to: more to read, or a request that is settled -/
abbrev Step := Except Request Draft

def setRegisters (d : Draft) : Step :=
  if d.registers then .error .misuse else .ok { d with registers := true }

def setAllMessages (d : Draft) : Step :=
  if d.allMessages then .error .misuse else .ok { d with allMessages := true }

def setNoStepLimit (d : Draft) : Step :=
  if d.noStepLimit then .error .misuse else .ok { d with noStepLimit := true }

def addVerbose (d : Draft) : Step :=
  .ok { d with verbosity := d.verbosity + 1 }

def setFile (d : Draft) (file : String) : Step :=
  if d.file.isSome then .error .misuse else .ok { d with file := some file }

/-- A number of steps: digits, perhaps with a plus sign in front, below 2⁶⁴ -/
def stepCount? (cs : List Char) : Option Nat :=
  let digits := if cs.head? = some '+' then cs.tail else cs
  (Decimal.nat? digits).filter (· < 18446744073709551616)

def setMaxSteps (d : Draft) (value : List Char) : Step :=
  match d.maxSteps, stepCount? value with
  | none, some n => .ok { d with maxSteps := some n }
  | _, _ => .error .misuse

/-- One letter behind a single hyphen -/
def short (d : Draft) (c : Char) : Step :=
  if c = 'r' then d.setRegisters
  else if c = 'a' then d.setAllMessages
  else if c = 'v' then d.addVerbose
  else if c = 'V' then .error .version
  else if c = 'h' then .error .help
  else .error .misuse

/-- The name behind two hyphens, with no value of its own -/
def long (d : Draft) (name : String) : Step :=
  if name = "registers" then d.setRegisters
  else if name = "all-messages" then d.setAllMessages
  else if name = "verbose" then d.addVerbose
  else if name = "no-step-limit" then d.setNoStepLimit
  else if name = "version" then .error .version
  else if name = "help" then .error .help
  else .error .misuse

/-! ## All arguments -/

/-- The request of arguments that have all been read -/
def finish (d : Draft) : Request :=
  match d.file with
  | none => .misuse
  | some file =>
    let run limit := .run ⟨file, limit, d.registers, d.allMessages, d.verbosity⟩
    match d.maxSteps, d.noStepLimit with
    | some _, true => .misuse
    | some n, false => run (some n)
    | none, true => run none
    | none, false => run (some Machine.defaultLimit)

/-- The name of an option and its value behind an equals sign -/
def assignment? (cs : List Char) : Option (List Char × List Char) :=
  match cs.dropWhile (· != '=') with
  | _ :: value => some (cs.takeWhile (· != '='), value)
  | [] => none

/-- A value that stands for itself must not look like an option; a lone hyphen does not -/
def isValue (cs : List Char) : Bool :=
  cs.head? != some '-' || cs == ['-']

/-- Reads files only -/
def readFiles (d : Draft) : List String → Step
  | [] => .ok d
  | file :: args => do
    let d ← d.setFile file
    readFiles d args

/-- Reads arguments -/
def read (d : Draft) : List String → Step
  | [] => .ok d
  | "--" :: args => d.readFiles args
  | "--max-steps" :: args =>
    match args with
    | [] => .error .misuse
    | value :: args =>
      if isValue value.toList then do
        let d ← d.setMaxSteps value.toList
        read d args
      else .error .misuse
  | arg :: args =>
    match arg.toList with
    | '-' :: '-' :: cs => do
      let d ← match assignment? cs with
        | none => d.long (String.ofList cs)
        | some (name, value) =>
          if String.ofList name = "max-steps" then d.setMaxSteps value else .error .misuse
      read d args
    | '-' :: c :: cs => do
      let d ← (c :: cs).foldlM short d
      read d args
    | _ => do
      let d ← d.setFile arg
      read d args

end Draft

/-- What the arguments ask for -/
def Request.ofArgs (args : List String) : Request :=
  match Draft.empty.read args with
  | .ok d => d.finish
  | .error r => r

end RegisterMachine.CommandLine
