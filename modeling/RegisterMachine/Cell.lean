import RegisterMachine.Word.Arithmetic

/-!
# `RegisterMachine.Cell` — what a register can hold

The machine is written for any kind of cell, and there are two:

    cells       what fits                      machine
    Word        -2⁶³ ≤ n < 2⁶³                 the one that programs run on
    Int         every integer                  the ideal one, which never overflows

A cell is an integer, and an operation on cells is exact: where the exact result
fits it is in the cell, and where it does not there is no result.
-/

namespace RegisterMachine

/-- What a register can hold: numbers that contain the words, not necessarily all integers -/
class Cell (V : Type) where
  ofWord : Word → V
  toInt : V → Int
  ofInt? : Int → Option V
  add? : V → V → Option V
  sub? : V → V → Option V
  mul? : V → V → Option V
  /-- The quotient rounded down -/
  div? : V → V → Option V
  toInt_ofWord : ∀ w, toInt (ofWord w) = w.toInt
  ofInt?_eq_some_iff : ∀ {n v}, ofInt? n = some v ↔ toInt v = n
  add?_eq : ∀ a b, add? a b = ofInt? (toInt a + toInt b)
  sub?_eq : ∀ a b, sub? a b = ofInt? (toInt a - toInt b)
  mul?_eq : ∀ a b, mul? a b = ofInt? (toInt a * toInt b)
  div?_eq : ∀ a b, toInt b ≠ 0 → div? a b = ofInt? ((toInt a).fdiv (toInt b))

instance : Cell Word where
  ofWord w := w
  toInt w := w.toInt
  ofInt? := Word.ofInt?
  add? := Word.add?
  sub? := Word.sub?
  mul? := Word.mul?
  div? := Word.fdiv?
  toInt_ofWord _ := rfl
  ofInt?_eq_some_iff := Word.ofInt?_eq_some_iff
  add?_eq _ _ := rfl
  sub?_eq _ _ := rfl
  mul?_eq _ _ := rfl
  div?_eq _ _ hb := Word.fdiv?_eq hb

instance : Cell Int where
  ofWord w := w.toInt
  toInt n := n
  ofInt? := some
  add? m n := some (m + n)
  sub? m n := some (m - n)
  mul? m n := some (m * n)
  div? m n := some (m.fdiv n)
  toInt_ofWord _ := rfl
  ofInt?_eq_some_iff := by simp [eq_comm]
  add?_eq _ _ := rfl
  sub?_eq _ _ := rfl
  mul?_eq _ _ := rfl
  div?_eq _ _ _ := rfl

namespace Cell

variable {V : Type} [Cell V]

theorem ofInt?_toInt (v : V) : ofInt? (toInt v) = some v :=
  ofInt?_eq_some_iff.2 rfl

/-- A cell holds nothing but its value -/
theorem toInt_injective {a b : V} (h : toInt a = toInt b) : a = b := by
  have ha := ofInt?_toInt a
  rw [h, ofInt?_toInt b] at ha
  exact (Option.some.inj ha).symm

end Cell

end RegisterMachine
