import Mathlib.Data.Rat.Floor
import RegisterMachine.Word.Arithmetic

/-!
# `RegisterMachine.Proofs.Word.Division` — the quotient rounded down, one operation after another

`Word.fdiv?` finds the quotient that is rounded down from the one that is rounded toward
zero.  On the way it uses two operations that not all words have, and it never asks them
of words which do not:

    operation               missing for                                 never asked, because
    a remainder             zero; the least word by -1                  there is no quotient
    one less                the least word                              of a divisor beyond ±1

`fdivSteps` is the same computation with operations that are stuck where they are missing,
and it is not stuck anywhere (`fdivSteps_eq`).  So the quotient itself is all that may be
missing, and it is for one pair of words only (`fdiv?_eq_none_iff`).
-/

namespace RegisterMachine

/-- The quotient that is rounded down is the floor of the exact one, whatever the signs -/
theorem fdiv_eq_floor (m n : Int) : m.fdiv n = ⌊(m : ℚ) / n⌋ := by
  have hnonneg : ∀ (m : Int) (d : Nat), m.fdiv d = ⌊(m : ℚ) / (d : Int)⌋ := by
    intro m d
    rw [Int.fdiv_eq_ediv_of_nonneg m (Int.natCast_nonneg d)]
    exact (Rat.floor_intCast_div_natCast m d).symm
  rcases Int.le_total 0 n with hn | hn
  · obtain ⟨d, rfl⟩ := Int.eq_ofNat_of_zero_le hn
    exact hnonneg m d
  · obtain ⟨d, hd⟩ := Int.eq_ofNat_of_zero_le (Int.neg_nonneg_of_nonpos hn)
    obtain rfl : n = -d := by omega
    have h := hnonneg (-m) d
    rw [← Int.neg_fdiv_neg, Int.neg_neg, h]
    congr 1
    push_cast
    rw [neg_div, div_neg]

namespace Word

/-! ## Quotients that are words -/

/-- A divisor beyond 1 and -1 halves the quotient at least -/
theorem natAbs_tdiv_le {m n : Int} (hn : n.natAbs ≠ 1) : (m.tdiv n).natAbs ≤ m.natAbs / 2 := by
  rw [Int.natAbs_tdiv]
  show m.natAbs / n.natAbs ≤ m.natAbs / 2
  rcases Nat.eq_zero_or_pos n.natAbs with hzero | hpos
  · rw [hzero, Nat.div_zero]
    exact Nat.zero_le _
  · exact Nat.div_le_div_left (by omega) (by decide)

/-- A word has a quotient by every other one, except the least word by -1 -/
theorem fits_tdiv_iff {m n : Int} (hm : Fits m) :
    Fits (m.tdiv n) ↔ ¬ (m = -9223372036854775808 ∧ n = -1) := by
  constructor
  · rintro hfits ⟨rfl, rfl⟩
    revert hfits
    decide
  · intro hne
    by_cases hn : n.natAbs = 1
    · rcases (show n = 1 ∨ n = -1 by omega) with rfl | rfl
      · rwa [Int.tdiv_one]
      · rw [Int.tdiv_neg, Int.tdiv_one]
        unfold Fits at hm ⊢
        omega
    · have hle := natAbs_tdiv_le (m := m) hn
      unfold Fits at hm ⊢
      omega

/-- Where there is a remainder, one less than the quotient is a word as well -/
theorem fits_tdiv_sub_one {m n : Int} (hm : Fits m) (hrem : m.tmod n ≠ 0) :
    Fits (m.tdiv n - 1) := by
  have hn : n.natAbs ≠ 1 := by
    intro hone
    rcases (show n = 1 ∨ n = -1 by omega) with rfl | rfl
    · exact hrem (Int.tmod_one m)
    · exact hrem (by rw [Int.tmod_neg, Int.tmod_one])
  have hle := natAbs_tdiv_le (m := m) hn
  unfold Fits at hm ⊢
  omega

theorem fits_fdiv_iff {m n : Int} (hm : Fits m) (hn : n ≠ 0) :
    Fits (m.fdiv n) ↔ ¬ (m = -9223372036854775808 ∧ n = -1) := by
  rw [fdiv_eq_of_ne_zero hn]
  split
  · rename_i hstep
    refine iff_of_true (fits_tdiv_sub_one hm hstep.1) ?_
    rintro ⟨_, rfl⟩
    exact hstep.1 (by rw [Int.tmod_neg, Int.tmod_one])
  · exact fits_tdiv_iff hm

/-! ## One operation after another -/

/-- An operation that is asked of words which do not have it -/
inductive Stuck where
  | remainder (a b : Word)
  | pred (a : Word)

/-- The remainder of words: none has one by zero, nor the least word by -1 -/
def rem (a b : Word) : Except Stuck Word :=
  if b = 0 ∨ a = Int64.minValue ∧ b = -1 then .error (.remainder a b) else .ok (a % b)

/-- The word before a word: the least has none -/
def pred (a : Word) : Except Stuck Word :=
  match sub? a 1 with
  | some b => .ok b
  | none => .error (.pred a)

/-- The quotient of two words rounded down, by operations that may be stuck -/
def fdivSteps (a b : Word) : Except Stuck (Option Word) :=
  match tdiv? a b with
  | none => .ok none
  | some quotient => do
    let remainder ← rem a b
    if remainder ≠ 0 ∧ ¬ (a < 0 ↔ b < 0) then some <$> pred quotient else return some quotient

/-- The values of the one pair of words whose quotient is no word -/
theorem toInt_eq_pair_iff {a b : Word} :
    a.toInt = -9223372036854775808 ∧ b.toInt = -1 ↔ a = Int64.minValue ∧ b = -1 :=
  and_congr (@Int64.toInt_inj a Int64.minValue) (@Int64.toInt_inj b (-1))

theorem tdiv?_eq_none_iff {a b : Word} :
    tdiv? a b = none ↔ b = 0 ∨ a = Int64.minValue ∧ b = -1 := by
  unfold tdiv?
  split
  · rename_i hb
    simp [hb]
  · rename_i hb
    rw [ofInt?_eq_none_iff, fits_tdiv_iff (fits_toInt a), not_not, toInt_eq_pair_iff,
      or_iff_right hb]

/-- Words that have a quotient have a remainder -/
theorem rem_of_tdiv? {a b q : Word} (h : tdiv? a b = some q) : rem a b = .ok (a % b) := by
  refine if_neg ?_
  rw [← tdiv?_eq_none_iff, h]
  exact nofun

/-- The quotient of words that have a remainder has a word before it -/
theorem pred_of_tdiv? {a b q : Word} (h : tdiv? a b = some q) (hrem : a % b ≠ 0) :
    ∃ r, sub? q 1 = some r := by
  have hb : b ≠ 0 := by
    rintro rfl
    cases h
  rw [tdiv?, if_neg hb, ofInt?_eq_some_iff] at h
  have hmod : a.toInt.tmod b.toInt ≠ 0 := by
    rwa [← Int64.toInt_mod, ne_eq, toInt_eq_zero_iff]
  have hfits := fits_tdiv_sub_one (fits_toInt a) hmod
  rw [← h] at hfits
  exact ⟨_, ofInt?_eq_some_iff.2 (toInt_ofInt hfits)⟩

/-- Rounding down is not stuck anywhere -/
theorem fdivSteps_eq (a b : Word) : fdivSteps a b = .ok (fdiv? a b) := by
  unfold fdivSteps fdiv?
  cases hq : tdiv? a b with
  | none => rfl
  | some q =>
    simp only [rem_of_tdiv? hq]
    show (if a % b ≠ 0 ∧ ¬ (a < 0 ↔ b < 0) then some <$> pred q else .ok (some q)) =
      Except.ok (if a % b ≠ 0 ∧ ¬ (a < 0 ↔ b < 0) then sub? q 1 else some q)
    split
    · rename_i hstep
      obtain ⟨r, hr⟩ := pred_of_tdiv? hq hstep.1
      rw [pred, hr]
      rfl
    · rfl

/-- There is a quotient rounded down of every two words but these -/
theorem fdiv?_eq_none_iff {a b : Word} (hb : b ≠ 0) :
    fdiv? a b = none ↔ a = Int64.minValue ∧ b = -1 := by
  have hb' : b.toInt ≠ 0 := mt toInt_eq_zero_iff.1 hb
  rw [fdiv?_eq hb', ofInt?_eq_none_iff, fits_fdiv_iff (fits_toInt a) hb', not_not,
    toInt_eq_pair_iff]

end Word

end RegisterMachine
