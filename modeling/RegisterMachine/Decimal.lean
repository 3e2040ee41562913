/-!
# `RegisterMachine.Decimal` — integers in decimal

Numbers are written without leading zeros and with a minus sign in front if
they are negative.  Reading is wider than writing: leading zeros are accepted
and `-0` is zero.  What is written is read back as the same number
(`int?_ofInt`).
-/

namespace RegisterMachine.Decimal

/-! ## Reading -/

/-- The number a string of digits stands for, its first digit the most significant -/
def value (ds : List Char) : Nat :=
  ds.foldl (fun n d => 10 * n + (d.toNat - 48)) 0

/-- The natural number written by one or more digits and nothing else -/
def nat? (cs : List Char) : Option Nat :=
  if cs ≠ [] ∧ cs.all Char.isDigit then some (value cs) else none

/-- The integer written by digits with an optional minus sign -/
def int? : List Char → Option Int
  | [] => none
  | c :: cs => if c = '-' then (nat? cs).map fun n => -(n : Int) else (nat? (c :: cs)).map Int.ofNat

/-! ## Writing -/

/-- The digits of a natural number -/
def ofNat (n : Nat) : List Char :=
  Nat.toDigits 10 n

/-- An integer in decimal -/
def ofInt : Int → List Char
  | .ofNat n => ofNat n
  | .negSucc n => '-' :: ofNat (n + 1)

/-- An integer in decimal, as a string -/
def text (n : Int) : String :=
  String.ofList (ofInt n)

/-! ## What is written is read back -/

theorem value_append_singleton (ds : List Char) (d : Char) :
    value (ds ++ [d]) = 10 * value ds + (d.toNat - 48) := by
  simp [value, List.foldl_append]

theorem digitChar_facts : ∀ n < 10,
    (Nat.digitChar n).isDigit = true ∧ (Nat.digitChar n).toNat - 48 = n
      ∧ Nat.digitChar n ≠ '-' := by
  decide

/-- The digits of a number: there is one, all are digits, and they stand for the number -/
theorem ofNat_facts (n : Nat) :
    ofNat n ≠ [] ∧ (∀ c ∈ ofNat n, c.isDigit = true) ∧ value (ofNat n) = n := by
  induction n using Nat.strongRecOn with
  | _ n ih =>
    by_cases h : n < 10
    · have hd := digitChar_facts n h
      have he : ofNat n = [Nat.digitChar n] := Nat.toDigits_of_lt_base h
      refine ⟨by simp [he], by simp [he, hd.1], ?_⟩
      simp [he, value, hd.2.1]
    · have hq := ih (n / 10) (by omega)
      have hd := digitChar_facts (n % 10) (by omega)
      have he : ofNat n = ofNat (n / 10) ++ [Nat.digitChar (n % 10)] := by
        have hlast : Nat.toDigits 10 (n % 10) = [Nat.digitChar (n % 10)] :=
          Nat.toDigits_of_lt_base (by omega)
        have hsplit := Nat.toDigits_append_toDigits (b := 10) (n := n / 10) (d := n % 10)
          (by decide) (by omega) (by omega)
        rw [hlast, Nat.div_add_mod] at hsplit
        exact hsplit.symm
      refine ⟨by simp [he], ?_, ?_⟩
      · intro c hc
        rw [he, List.mem_append] at hc
        rcases hc with hc | hc
        · exact hq.2.1 c hc
        · rw [List.mem_singleton.1 hc]; exact hd.1
      · rw [he, value_append_singleton, hq.2.2, hd.2.1]
        omega

theorem nat?_ofNat (n : Nat) : nat? (ofNat n) = some n := by
  have h := ofNat_facts n
  rw [nat?, if_pos ⟨h.1, List.all_eq_true.2 h.2.1⟩, h.2.2]

/-- Digits do not start with a minus sign -/
theorem ofNat_eq_cons (n : Nat) : ∃ c cs, ofNat n = c :: cs ∧ c ≠ '-' := by
  have h := ofNat_facts n
  match hn : ofNat n with
  | [] => exact absurd hn h.1
  | c :: cs =>
    refine ⟨c, cs, rfl, ?_⟩
    rintro rfl
    exact absurd (h.2.1 '-' (by simp [hn])) (by decide)

/-- Reading undoes writing -/
theorem int?_ofInt (n : Int) : int? (ofInt n) = some n := by
  cases n with
  | ofNat n =>
    obtain ⟨c, cs, hc, hne⟩ := ofNat_eq_cons n
    show int? (ofNat n) = some (Int.ofNat n)
    rw [hc, int?, if_neg hne, ← hc, nat?_ofNat]
    rfl
  | negSucc n =>
    show int? ('-' :: ofNat (n + 1)) = some (Int.negSucc n)
    rw [int?, if_pos rfl, nat?_ofNat]
    rfl

end RegisterMachine.Decimal
