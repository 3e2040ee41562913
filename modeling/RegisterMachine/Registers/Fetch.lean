import RegisterMachine.Cause

/-!
# `RegisterMachine.Registers.Fetch` — reading a register that has to exist

A read of a register that was never written is a fault, and its cause lists
what the store holds instead.
-/

namespace RegisterMachine.Registers

variable {V : Type} [Cell V]

/-- The content of a register, or the complaint that it does not exist -/
def fetch (r : Registers V) (name : String) : Except Cause V :=
  match r.get? name with
  | some v => .ok v
  | none => .error (.uninitialized name r.contents)

theorem fetch_eq_ok_iff {r : Registers V} {name : String} {v : V} :
    r.fetch name = .ok v ↔ r.get? name = some v := by
  unfold fetch
  cases r.get? name <;> simp

theorem fetch_eq_error_iff {r : Registers V} {name : String} {c : Cause} :
    r.fetch name = .error c ↔ r.get? name = none ∧ c = .uninitialized name r.contents := by
  unfold fetch
  cases r.get? name <;> simp [eq_comm]

end RegisterMachine.Registers
