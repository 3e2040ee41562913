import RegisterMachine.Word

/-!
# `RegisterMachine.Word.Arithmetic` — arithmetic on words that refuses to wrap

Each operation has a result only if the exact one is a word, and it is that one:

    operation      exact result
    add?           the sum
    sub?           the difference
    mul?           the product
    tdiv?          the quotient rounded toward zero; by zero there is none
    fdiv?          the quotient rounded down                              (`fdiv?_eq`)

Words divide with rounding toward zero.  The quotient rounded down is the same
or one less, and `fdiv?` finds out which of them from the remainder and the signs.
The step down may not leave the words where there was a quotient at all, and a
quotient that is not a word has no remainder; so no result is lost on the way.
-/

namespace RegisterMachine

/-! ## Rounding -/

/-- Rounded toward zero, the quotient of numbers with different signs is not positive -/
theorem tdiv_nonpos_of_signs {m n : Int} (h : ¬ (m < 0 ↔ n < 0)) : m.tdiv n ≤ 0 := by
  by_cases hm : m < 0
  · have hquotient := Int.tdiv_nonneg (show 0 ≤ -m by omega) (show 0 ≤ n by omega)
    rw [Int.neg_tdiv] at hquotient
    omega
  · exact Int.tdiv_nonpos_of_nonneg_of_nonpos (by omega) (by omega)

/-- Rounding down takes one off if there is a remainder and the signs differ -/
theorem fdiv_eq_of_ne_zero {m n : Int} (hn : n ≠ 0) :
    m.fdiv n = if m.tmod n ≠ 0 ∧ ¬ (m < 0 ↔ n < 0) then m.tdiv n - 1 else m.tdiv n := by
  have hdvd : n ∣ m ↔ m.tmod n = 0 := Int.dvd_iff_tmod_eq_zero
  rw [Int.fdiv_eq_tdiv]
  rcases Int.lt_or_gt_of_ne hn with hneg | hpos
  · rw [Int.sign_eq_neg_one_of_neg hneg]
    grind
  · rw [Int.sign_eq_one_of_pos hpos]
    grind

namespace Word

/-! ## Operations -/

/-- The sum of two words, if it is one -/
def add? (a b : Word) : Option Word :=
  ofInt? (a.toInt + b.toInt)

/-- The difference of two words, if it is one -/
def sub? (a b : Word) : Option Word :=
  ofInt? (a.toInt - b.toInt)

/-- The product of two words, if it is one -/
def mul? (a b : Word) : Option Word :=
  ofInt? (a.toInt * b.toInt)

/-- The quotient of two words rounded toward zero, if it is one -/
def tdiv? (a b : Word) : Option Word :=
  if b = 0 then none else ofInt? (a.toInt.tdiv b.toInt)

/-- The quotient of two words rounded down, if it is one -/
def fdiv? (a b : Word) : Option Word := do
  let quotient ← tdiv? a b
  if a % b ≠ 0 ∧ ¬ (a < 0 ↔ b < 0) then sub? quotient 1 else some quotient

/-! ## The quotient rounded down -/

theorem toInt_eq_zero_iff {a : Word} : a.toInt = 0 ↔ a = 0 :=
  @Int64.toInt_inj a 0

theorem toInt_neg_iff {a : Word} : a.toInt < 0 ↔ a < 0 :=
  (@Int64.lt_iff_toInt_lt a 0).symm

/-- Taking one off a number that is not positive is exact, or the number was no word already -/
theorem bind_sub?_one {n : Int} (h : n ≤ 0) : (ofInt? n).bind (sub? · 1) = ofInt? (n - 1) := by
  cases hw : ofInt? n with
  | some w =>
    rw [← ofInt?_eq_some_iff.1 hw]
    rfl
  | none =>
    have hbelow : ¬ Fits (n - 1) := by
      have hn := ofInt?_eq_none_iff.1 hw
      unfold Fits at hn ⊢
      omega
    exact (ofInt?_eq_none_iff.2 hbelow).symm

/-- The quotient rounded down is the exact one if that is a word, and else there is none -/
theorem fdiv?_eq {a b : Word} (hb : b.toInt ≠ 0) : fdiv? a b = ofInt? (a.toInt.fdiv b.toInt) := by
  have hstep : (a % b ≠ 0 ∧ ¬ (a < 0 ↔ b < 0)) ↔
      (a.toInt.tmod b.toInt ≠ 0 ∧ ¬ (a.toInt < 0 ↔ b.toInt < 0)) := by
    rw [← Int64.toInt_mod, ne_eq, ne_eq, toInt_eq_zero_iff, toInt_neg_iff, toInt_neg_iff]
  rw [fdiv?, tdiv?, if_neg (mt toInt_eq_zero_iff.2 hb), fdiv_eq_of_ne_zero hb]
  simp only [hstep]
  split
  · rename_i hsigns
    exact bind_sub?_one (tdiv_nonpos_of_signs hsigns.2)
  · exact Option.bind_fun_some _

/-- The quotient of the least word by -1 is one more than the greatest word -/
example : fdiv? (-7) 2 = some (-4) ∧ fdiv? Int64.minValue (-1) = none := by decide

end Word

end RegisterMachine
