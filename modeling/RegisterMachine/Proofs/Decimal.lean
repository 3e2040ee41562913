import RegisterMachine.Decimal

/-!
# `RegisterMachine.Proofs.Decimal` — what numbers look like in decimal

A natural number is written with digits, at least one of them, and different
numbers are written differently.
-/

namespace RegisterMachine.Decimal

theorem ofNat_digits (n : Nat) :
    ∃ c cs, ofNat n = c :: cs ∧ c.isDigit = true ∧ ∀ d ∈ cs, d.isDigit = true := by
  obtain ⟨hne, hdigits, _⟩ := ofNat_facts n
  obtain ⟨c, cs, hcs⟩ := List.exists_cons_of_ne_nil hne
  rw [hcs] at hdigits
  refine ⟨c, cs, hcs, hdigits c List.mem_cons_self, ?_⟩
  intro d hd
  exact hdigits d (List.mem_cons_of_mem c hd)

/-- A character that is no digit is not in a number -/
theorem not_mem_ofNat {c : Char} (hc : c.isDigit = false) (n : Nat) : c ∉ ofNat n := by
  intro hmem
  rw [(ofNat_facts n).2.1 c hmem] at hc
  cases hc

theorem ofNat_injective {m n : Nat} (h : ofNat m = ofNat n) : m = n := by
  have hm := nat?_ofNat m
  rw [h, nat?_ofNat] at hm
  exact (Option.some.inj hm).symm

theorem toList_text (n : Nat) : (text n).toList = ofNat n :=
  String.toList_ofList

end RegisterMachine.Decimal
