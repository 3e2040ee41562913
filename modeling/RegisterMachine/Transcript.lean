import RegisterMachine.Transcript.Record

/-!
# `RegisterMachine.Transcript` — the records of a run from its source on

A transcript follows the parser and then the machine:

* a record for each line, up to the first that says nothing, and one for the
  program if there is one;
* for each turn of the run a record of what is about to be executed, and one of
  what it did if it moved control or sent a message;
* a record for the end, after one that says that the run has left the program
  if that is how it ended.

A run with a transcript is defined beside the run without one, on the same turn
(`Machine.head`, `Machine.dispatch`); the records are put down behind those that are
there already.  What a step did is read off the state behind it, and whether a
jump was taken off the flag before it.
-/

namespace RegisterMachine.Transcript

/-! ## The parser -/

/-- The records of lines up to the first that says nothing -/
def ofLines : List Line → List Record
  | [] => []
  | l :: ls =>
    match l.parse with
    | .ok i => .lineRead l.text i :: ofLines ls
    | .error _ => []

/-- The record of a program -/
def ofProgram (p : Program) : Record :=
  .programRead p.size p.labels.length

/-! ## The machine -/

variable {V : Type} [Cell V]

/-- What a successful step did, from the flag before it and the state behind it -/
def effect? (flag : Flag) (after : State V) : Instruction → Option Record
  | .jump condition target =>
    if condition.holds flag then some (.jumped condition target) else none
  | .call target => some (.called target after.callStack.length)
  | .ret => some (.returned after.ip)
  | .message _ => after.output.back?.map .said
  | _ => none

/-- The records of the end of a run -/
def ofEnd (s : State V) (outcome : Outcome V) : List Record :=
  let finished := .finished outcome.steps outcome.value
  if outcome.value = .outOfBounds then [.leftProgram s.ip, finished] else [finished]

open Machine in
/-- A run under a limit, its records put behind the given ones -/
@[specialize] def runFrom (p : Program) (limit : Nat) :
    Nat → State V → Array Record → Array Record × Except Diagnostic (Outcome V)
  | fuel, s, records =>
    match head p s with
    | .finished outcome => (records ++ ofEnd s outcome, .ok outcome)
    | .pending i =>
      match fuel with
      | 0 => (records, .error (cutOff p limit s))
      | fuel + 1 =>
        let flag := s.flag
        let records := records.push (.dispatched s.ip i flag)
        match dispatch p s i with
        | .ok s' => runFrom p limit fuel s' (records ++ (effect? flag s' i).toList)
        | .error d => (records, .error d)

section

variable (p : Program)

open Machine in
/-- A run without a limit, its records put behind the given ones, if it ends -/
@[specialize] def runUnlimited (s : State V) (records : Array Record) :
    Option (Array Record × Except Diagnostic (Outcome V)) :=
  match head p s with
  | .finished outcome => some (records ++ ofEnd s outcome, .ok outcome)
  | .pending i =>
    let flag := s.flag
    let records := records.push (.dispatched s.ip i flag)
    match dispatch p s i with
    -- as for `Machine.runUnlimited`, a call that does not hold its place in the file
    | .ok s' => by
      apply runUnlimited
      · exact s'
      · exact records ++ (effect? flag s' i).toList
    | .error d => some (records, .error d)
partial_fixpoint

end

/-! ## From a source on -/

/-- The records and the result of reading a source and running it, if the run ends -/
def ofSource (source : String) (limit : Option Nat) :
    Option (Array Record × Except Diagnostic (Outcome Word)) :=
  let records := (ofLines (Source.lines source)).toArray
  match Program.parse source with
  | .error d => some (records, .error d)
  | .ok p =>
    let records := records.push (ofProgram p)
    match limit with
    | some limit => some (runFrom p limit limit .initial records)
    | none => runUnlimited p .initial records

end RegisterMachine.Transcript
