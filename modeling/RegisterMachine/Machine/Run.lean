import RegisterMachine.Machine.Exec

/-!
# `RegisterMachine.Machine.Run` — runs of a program

A run repeats one turn.  It looks at the instruction to execute:

    there is none              the run has ended, out of bounds
    it is `end`                the run has ended
    the step limit is reached  the run fails
    else                       the instruction is executed, and the run goes on

So a run may execute as many instructions as its limit says and then still end;
the limit cuts off only a run that would execute one more.  What fails while it
is executed is reported at the place of the instruction.

There are two kinds of run.  `runFrom` has a limit and always ends.
`runUnlimited` has none; it is the least solution of its equation, and `none`
says that there is no end.  Neither mentions the other: they share the turn.
-/

namespace RegisterMachine

namespace Machine

variable {V : Type} [Cell V]

/-- What a run finds at the start of a turn -/
inductive Head (V : Type) where
  | finished (outcome : Outcome V)
  | pending (i : Instruction)

/-- Whether a run has ended, or else the instruction it is about to execute -/
@[specialize] def head (p : Program) (s : State V) : Head V :=
  match p.get? s.ip with
  | none => .finished { s with result := .outOfBounds }.outcome
  | some .halt => .finished s.outcome
  | some i => .pending i

/-- Executes an instruction and goes where it leads -/
@[specialize] def dispatch (p : Program) (s : State V) (i : Instruction) :
    Except Diagnostic (State V) :=
  match exec p { s with next := s.ip + 1, steps := s.steps + 1 } i with
  | .done s' => .ok { s' with ip := s'.next }
  | .failed c s' => .error (c.diagnostic (p.span? s'.ip))

/-- The complaint of a run that was cut off in a state -/
def cutOff (p : Program) (limit : Nat) (s : State V) : Diagnostic :=
  (Cause.stepLimit limit).diagnostic (p.span? s.ip)

/-- A run under a limit that goes on for so many steps at most -/
@[specialize] def runFrom (p : Program) (limit : Nat) :
    Nat → State V → Except Diagnostic (Outcome V)
  | fuel, s =>
    match head p s with
    | .finished outcome => .ok outcome
    | .pending i =>
      match fuel with
      | 0 => .error (cutOff p limit s)
      | fuel + 1 =>
        match dispatch p s i with
        | .ok s' => runFrom p limit fuel s'
        | .error d => .error d

section

variable (p : Program)

/-- A run without a limit, if it ends -/
@[specialize] def runUnlimited (s : State V) : Option (Except Diagnostic (Outcome V)) :=
  match head p s with
  | .finished outcome => some (.ok outcome)
  | .pending i =>
    match dispatch p s i with
    -- a call that is written out would leave its place in this file in the definition
    | .ok s' => by
      apply runUnlimited
      exact s'
    | .error d => some (.error d)
partial_fixpoint

end

/-- The number of steps after which a run is cut off if nothing else is asked for -/
def defaultLimit : Nat := 10000000

end Machine

namespace Program

/-- The run of a program on machine words under a limit -/
def runWithin (p : Program) (limit : Nat) : Except Diagnostic (Outcome Word) :=
  Machine.runFrom p limit limit .initial

/-- The run of a program on machine words, if it ends; under a limit it does -/
def run (p : Program) : Option Nat → Option (Except Diagnostic (Outcome Word))
  | some limit => some (p.runWithin limit)
  | none => Machine.runUnlimited p .initial

/-- The answer of a source under the default limit -/
def interpret (source : String) : Except Diagnostic Value := do
  let p ← Program.parse source
  let outcome ← p.runWithin Machine.defaultLimit
  return outcome.value

end Program

end RegisterMachine
