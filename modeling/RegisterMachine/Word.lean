import RegisterMachine.Decimal

/-!
# `RegisterMachine.Word` — machine words

A literal is a machine word: a signed integer of 64 bits.  A word is looked at
by its value, and made of a value by `ofInt?`, which refuses one that does not
fit; so nothing ever wraps, and the size of a word is in one place only.
-/

namespace RegisterMachine

/-- A signed integer of 64 bits -/
abbrev Word := Int64

namespace Word

/-- Whether an integer is one of the 2⁶⁴ words -/
def Fits (n : Int) : Prop :=
  -9223372036854775808 ≤ n ∧ n ≤ 9223372036854775807

instance (n : Int) : Decidable (Fits n) :=
  inferInstanceAs (Decidable (_ ∧ _))

/-- The word of this value, if there is one -/
def ofInt? (n : Int) : Option Word :=
  if Fits n then some (Int64.ofInt n) else none

/-- Every word's value fits -/
theorem fits_toInt (w : Word) : Fits w.toInt :=
  ⟨Int64.le_toInt w, Int.le_of_lt_add_one (Int64.toInt_lt w)⟩

theorem toInt_ofInt {n : Int} (h : Fits n) : (Int64.ofInt n).toInt = n :=
  Int64.toInt_ofInt_of_le h.1 (by have := h.2; omega)

/-- A word is made of exactly its value -/
theorem ofInt?_eq_some_iff {n : Int} {w : Word} : ofInt? n = some w ↔ w.toInt = n := by
  constructor
  · intro h
    unfold ofInt? at h
    split at h
    · rename_i hn
      cases h
      exact toInt_ofInt hn
    · cases h
  · rintro rfl
    rw [ofInt?, if_pos (fits_toInt w), Int64.ofInt_toInt]

/-- There is no word exactly where the integer does not fit -/
theorem ofInt?_eq_none_iff {n : Int} : ofInt? n = none ↔ ¬ Fits n := by
  unfold ofInt?
  split <;> simp_all

/-- The word a decimal text stands for, if it stands for one -/
def read? (cs : List Char) : Option Word :=
  (Decimal.int? cs).bind ofInt?

/-- The word in decimal -/
def text (w : Word) : String :=
  Decimal.text w.toInt

theorem read?_text (w : Word) : read? w.text.toList = some w := by
  simp [read?, text, Decimal.text, Decimal.int?_ofInt, ofInt?_eq_some_iff]

end Word

end RegisterMachine
