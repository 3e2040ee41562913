/-!
# `RegisterMachine.Flag` — the outcome of the last comparison, and what jumps ask of it

A comparison leaves an ordering in the flag; before the first one the flag is
unset.  A condition is what a jump asks of the flag.  An unset flag satisfies
no condition but `always`, not even `notEqual`: there is nothing that differs.

    condition        name   taken on
    always           jmp    every flag, set or not
    equal            je     =
    notEqual         jne    <  >
    greaterOrEqual   jge    =  >
    greater          jg     >
    lessOrEqual      jle    <  =
    less             jl     <
-/

namespace RegisterMachine

/-- The outcome of the last comparison, if there was one -/
abbrev Flag := Option Ordering

/-- The name of a flag in a transcript -/
def Flag.name : Flag → String
  | none => "Unset"
  | some .eq => "Equal"
  | some .gt => "Greater"
  | some .lt => "Less"

/-- What a jump asks of the flag -/
inductive Condition where
  | always
  | equal
  | notEqual
  | greaterOrEqual
  | greater
  | lessOrEqual
  | less
  deriving DecidableEq, Inhabited

namespace Condition

/-- The conditions in the order of the table -/
def all : List Condition :=
  [.always, .equal, .notEqual, .greaterOrEqual, .greater, .lessOrEqual, .less]

/-- The opcode of a jump on the condition -/
def name : Condition → String
  | .always => "jmp"
  | .equal => "je"
  | .notEqual => "jne"
  | .greaterOrEqual => "jge"
  | .greater => "jg"
  | .lessOrEqual => "jle"
  | .less => "jl"

/-- Whether a jump on the condition is taken under an ordering -/
def accepts : Condition → Ordering → Bool
  | .always, _ => true
  | .equal, o => o == .eq
  | .notEqual, o => o != .eq
  | .greaterOrEqual, o => o != .lt
  | .greater, o => o == .gt
  | .lessOrEqual, o => o != .gt
  | .less, o => o == .lt

/-- Whether a jump on the condition is taken under a flag -/
def holds (c : Condition) (flag : Flag) : Bool :=
  c = .always || flag.any c.accepts

theorem mem_all (c : Condition) : c ∈ all := by
  cases c <;> decide

/-- A set flag decides by its ordering alone -/
theorem holds_some (c : Condition) (o : Ordering) : c.holds (some o) = c.accepts o := by
  cases c <;> rfl

/-- An unset flag takes the unconditional jump only -/
theorem holds_none_iff (c : Condition) : c.holds none = true ↔ c = .always := by
  cases c <;> decide

end Condition

end RegisterMachine
