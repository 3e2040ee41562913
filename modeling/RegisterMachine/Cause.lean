import RegisterMachine.Diagnostic
import RegisterMachine.Registers

/-!
# `RegisterMachine.Cause` — all that can go wrong, and its wording

One constructor for each thing that can go wrong, with what the message has to
name.  The wording is in one place, `message`, and the kind in another, `kind`;
the rest of the library speaks of causes and never of texts.

    stage                 causes
    tokens                unknownCharacter
    lines                 notAnOpcode … trailing
    programs              labelRedefined
    runs                  unknownLabel … stepLimit
    files                 unreadable
-/

namespace RegisterMachine

/-- What an instruction expects at some place -/
inductive Expectation where
  | targetRegister
  | separator
  | operand
  | label
  deriving DecidableEq

/-- What is expected, in words -/
def Expectation.text : Expectation → String
  | .targetRegister => "a target register"
  | .separator => "','"
  | .operand => "a register or integer"
  | .label => "a label"

/-- What went wrong -/
inductive Cause where
  /-- A character that starts no token -/
  | unknownCharacter (c : Char)
  /-- A line that starts with neither an instruction nor a label -/
  | notAnOpcode (found : String)
  /-- A message without a template -/
  | emptyTemplate
  | unknownInstruction (name : String)
  /-- An instruction that ends too early -/
  | missing (expected : Expectation) (opcode : String)
  /-- A token of the wrong class -/
  | mismatch (expected : Expectation) (opcode found : String)
  /-- An integer that is no machine word -/
  | literalOutOfRange (literal : String)
  /-- A token behind the end of an instruction -/
  | trailing (found opcode : String)
  /-- A label that an earlier line has already defined -/
  | labelRedefined (name : String)
  | unknownLabel (name : String)
  /-- A read of a register that does not exist, and those that do -/
  | uninitialized (name : String) (contents : List (String × Int))
  /-- A return without a call -/
  | emptyCallStack
  | divisionByZero (target : String)
  /-- A result that does not fit into its register -/
  | overflow (operation target : String)
  | stepLimit (limit : Nat)
  | unreadable (reason : String)
  deriving DecidableEq

namespace Cause

/-- A text between single quotes -/
def named (s : String) : String :=
  "'" ++ s ++ "'"

def kind : Cause → Diagnostic.Kind
  | .unknownCharacter _ | .notAnOpcode _ | .emptyTemplate | .unknownInstruction _
  | .missing _ _ | .mismatch _ _ _ | .literalOutOfRange _ | .trailing _ _
  | .labelRedefined _ => .parse
  | .unknownLabel _ => .unknownLabel
  | .uninitialized _ _ => .uninitializedRegister
  | .emptyCallStack => .emptyCallStack
  | .divisionByZero _ => .divisionByZero
  | .overflow _ _ => .overflow
  | .stepLimit _ => .stepLimitExceeded
  | .unreadable _ => .io

def message : Cause → String
  | .unknownCharacter c => "Unknown character " ++ named (String.singleton c)
  | .notAnOpcode found => "Expected an instruction or label, but got " ++ named found
  | .emptyTemplate => "Expected a message template after 'msg'"
  | .unknownInstruction name => "Unknown instruction " ++ named name
  | .missing expected opcode => "Expected " ++ expected.text ++ " for " ++ named opcode
  | .mismatch expected opcode found =>
    "Expected " ++ expected.text ++ " for " ++ named opcode ++ ", but got " ++ named found
  | .literalOutOfRange literal => "Integer literal " ++ named literal ++ " is out of range"
  | .trailing found opcode =>
    "Unexpected " ++ named found ++ " after " ++ named opcode ++ " instruction"
  | .labelRedefined name => "Label " ++ named name ++ " already defined"
  | .unknownLabel name => "Unknown label " ++ named name
  | .uninitialized name contents =>
    "Register " ++ named name ++ " is not initialized, registers: " ++ Registers.listing contents
  | .emptyCallStack => "'ret' without a caller to return to"
  | .divisionByZero target => "Division of register " ++ named target ++ " by zero"
  | .overflow operation target => named operation ++ " overflowed register " ++ named target
  | .stepLimit limit =>
    "Program did not reach 'end' within " ++ Decimal.text limit ++ " steps"
  | .unreadable reason => reason

/-- The cause in words, about a span if one is known -/
def diagnostic (c : Cause) (span : Option Span) : Diagnostic :=
  (⟨c.kind, c.message, none⟩ : Diagnostic).orSpan span

@[simp] theorem kind_diagnostic (c : Cause) (s : Option Span) :
    (c.diagnostic s).kind = c.kind := rfl

end Cause

end RegisterMachine
