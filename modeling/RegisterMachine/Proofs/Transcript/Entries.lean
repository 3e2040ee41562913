import RegisterMachine.Proofs.Machine.Trace
import RegisterMachine.Transcript

/-!
# `RegisterMachine.Proofs.Transcript.Entries` — what a log says, entry by entry

A record is told as an entry: how much detail it is, who reports it, and in which words.  The
entries of a log are written down here from what there is to tell, a line that was read, a
program, or the state in which an instruction is executed, and not from the records:

    entry        level   component   words
    ofLine       trace   parser      the line in quotes -> the structure of its instruction
    ofProgram    debug   parser      Parsed _ instructions with _ labels
    ofStep       trace   machine     _: _ flag=_
    ofDeed?      debug   machine     _ taken to '_'     call '_', depth _     ret to _     msg _
    ofExit       debug   machine     Instruction pointer _ is out of bounds
    ofOutcome    debug   machine     Finished after _ steps with _

A record of what a step did is made from the state behind it.  The state before the step says
the same (`told_effect?`): the depth after a call is one more than before it, and the address of a
return is the top of the stack that it takes it from.
-/

namespace RegisterMachine

open Machine

/-- The instruction has something to tell under a flag: it moves control or sends a message -/
def Instruction.tells (flag : Flag) : Instruction → Bool
  | .jump condition _ => condition.holds flag
  | .call _ | .ret | .message _ => true
  | _ => false

namespace Transcript

/-- Something that happened, as it is told -/
structure Entry where
  level : Level
  component : Component
  message : String
  deriving DecidableEq

/-- A record as it is told -/
def Record.told (r : Record) : Entry :=
  ⟨r.level, r.component, r.message⟩

variable {V : Type} [Cell V]

namespace Entry

/-- The entry is of an instruction that is about to be executed -/
def isStep (e : Entry) : Bool :=
  e.component = .machine ∧ e.level = .trace

/-- A line that was read, and what it says -/
def ofLine (l : Line) (i : Instruction) : Entry :=
  ⟨.trace, .parser, Text.quoted l.text ++ " -> " ++ i.dump⟩

/-- A program that was read: how many instructions it has, and how many labels -/
def ofProgram (p : Program) : Entry :=
  ⟨.debug, .parser,
    "Parsed " ++ Decimal.text p.size ++ " instructions with " ++ Decimal.text p.labels.length
      ++ " labels"⟩

/-- An instruction that is about to be executed: the pointer and the flag of the state, and
between them the instruction as it is written -/
def ofStep (s : State V) (i : Instruction) : Entry :=
  ⟨.trace, .machine,
    String.ofList ((Decimal.text s.ip).toList.leftpad 4 ' ') ++ ": "
      ++ String.ofList (i.text.toList.rightpad 24 ' ') ++ " flag=" ++ s.flag.name⟩

/-- What an instruction that succeeds has to tell, read off the state before it -/
def ofDeed? (s : State V) : Instruction → Option Entry
  | .jump condition target =>
    if condition.holds s.flag then
      some ⟨.debug, .machine, condition.name ++ " taken to '" ++ target ++ "'"⟩
    else none
  | .call target =>
    some ⟨.debug, .machine,
      "call '" ++ target ++ "', depth " ++ Decimal.text ↑(s.callStack.length + 1)⟩
  | .ret =>
    s.callStack.head?.map fun address => ⟨.debug, .machine, "ret to " ++ Decimal.text address⟩
  | .message template =>
    (Template.interpolate template s.registers).toOption.map fun content =>
      ⟨.debug, .machine, "msg " ++ Text.quoted content⟩
  | _ => none

/-- A run that has left the program, in the state in which it has -/
def ofExit (s : State V) : Entry :=
  ⟨.debug, .machine, "Instruction pointer " ++ Decimal.text s.ip ++ " is out of bounds"⟩

/-- A run that has finished: how many instructions it has executed, and its answer -/
def ofOutcome (o : Outcome V) : Entry :=
  ⟨.debug, .machine,
    "Finished after " ++ Decimal.text o.steps ++ " steps with " ++ o.value.dump⟩

end Entry

/-! ## The wording of records -/

theorem alignRight_eq (width : Nat) (s : String) :
    alignRight width s = String.ofList (s.toList.leftpad width ' ') := by
  rw [alignRight, List.leftpad, String.ofList_append, String.ofList_toList, String.length_toList]

theorem alignLeft_eq (width : Nat) (s : String) :
    alignLeft width s = String.ofList (s.toList.rightpad width ' ') := by
  rw [alignLeft, List.rightpad, String.ofList_append, String.ofList_toList, String.length_toList]

theorem told_lineRead (l : Line) (i : Instruction) :
    (Record.lineRead l.text i).told = .ofLine l i := rfl

theorem told_ofProgram (p : Program) : (ofProgram p).told = .ofProgram p := rfl

omit [Cell V] in
theorem told_dispatched (s : State V) (i : Instruction) :
    (Record.dispatched s.ip i s.flag).told = .ofStep s i := by
  rw [Entry.ofStep, ← alignRight_eq, ← alignLeft_eq]
  rfl

theorem told_jumped (condition : Condition) (target : String) :
    (Record.jumped condition target).told =
      ⟨.debug, .machine, condition.name ++ " taken to '" ++ target ++ "'"⟩ := by
  have hmessage : condition.name ++ " taken to " ++ Cause.named target =
      condition.name ++ " taken to '" ++ target ++ "'" := by
    simp [Cause.named, ← String.toList_inj]
  rw [← hmessage]
  rfl

theorem told_called (target : String) (depth : Nat) :
    (Record.called target depth).told =
      ⟨.debug, .machine, "call '" ++ target ++ "', depth " ++ Decimal.text depth⟩ := by
  have hmessage : "call " ++ Cause.named target ++ ", depth " ++ Decimal.text depth =
      "call '" ++ target ++ "', depth " ++ Decimal.text depth := by
    simp [Cause.named, ← String.toList_inj]
  rw [← hmessage]
  rfl

/-! ## Deeds -/

variable {p : Program} {s t : State V} {i : Instruction}

/-- What is told of a step from the state behind it can be told from the one before it -/
theorem told_effect? (h : dispatch p s i = .ok t) :
    (effect? s.flag t i).map Record.told = Entry.ofDeed? s i := by
  obtain ⟨u, hu, rfl⟩ := dispatch_eq_ok_iff.1 h
  cases hu with
  | comment | label | halt | operate | compare => rfl
  | pass hc =>
    rw [effect?, Entry.ofDeed?, show Condition.holds _ s.flag = _ from hc]
    rfl
  | jump hc =>
    rw [effect?, Entry.ofDeed?, show Condition.holds _ s.flag = _ from hc]
    exact congrArg some (told_jumped _ _)
  | call => exact congrArg some (told_called _ _)
  | ret hs =>
    rw [Entry.ofDeed?, show s.callStack = _ from hs]
    rfl
  | message htext =>
    rw [Entry.ofDeed?, show Template.interpolate _ s.registers = _ from htext]
    show Option.map _ (Option.map _ (Array.back? (s.output.push _))) = _
    rw [Array.back?_push]
    rfl

/-- A step has a deed exactly if its instruction has something to tell -/
theorem isSome_ofDeed? (h : dispatch p s i = .ok t) :
    (Entry.ofDeed? s i).isSome = i.tells s.flag := by
  obtain ⟨u, hu, rfl⟩ := dispatch_eq_ok_iff.1 h
  cases hu with
  | comment | label | halt | operate | compare | call => rfl
  | pass hc | jump hc =>
    rw [Entry.ofDeed?, Instruction.tells, show Condition.holds _ s.flag = _ from hc]
    rfl
  | ret hs =>
    rw [Entry.ofDeed?, show s.callStack = _ from hs]
    rfl
  | message htext =>
    rw [Entry.ofDeed?, show Template.interpolate _ s.registers = _ from htext]
    rfl

/-- A deed is no instruction that is about to be executed -/
theorem isStep_of_deed? {e : Entry} (h : Entry.ofDeed? s i = some e) : e.isStep = false := by
  cases i with
  | comment | label | operate | compare | halt => cases h
  | jump condition target =>
    rw [Entry.ofDeed?] at h
    split at h <;> cases h
    rfl
  | call target =>
    cases h
    rfl
  | ret | message =>
    obtain ⟨_, _, rfl⟩ := Option.map_eq_some_iff.1 h
    rfl

end Transcript

end RegisterMachine
