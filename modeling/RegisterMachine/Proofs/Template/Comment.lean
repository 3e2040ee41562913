import RegisterMachine.Proofs.Text.Trim
import RegisterMachine.Template

/-!
# `RegisterMachine.Proofs.Template.Comment` — the text before a comment

`uncommented` reads a text from the left and knows at each place only whether it
is inside quotes.  So what it does to a text does not depend on what stood
before, as long as that had neither a quote nor a semicolon (`uncommentedFrom_append`),
and a text without a comment has none in front of any of its places
(`uncommentedFrom_of_append`).

What stands behind a text matters only if that has no comment, and is then read as
the number of quotes before it demands (`uncommentedFrom_append_eq`).  So a comment
put behind an even number of quotes is taken away again (`uncommented_append_of_even`).
-/

namespace RegisterMachine.Template

open Text (White)

/-- A text without quotes and semicolons -/
def Plain (cs : List Char) : Prop :=
  ∀ c ∈ cs, c ≠ ';' ∧ c ≠ quote

theorem Plain.of_white {cs : List Char} (h : White cs) : Plain cs := by
  intro c hc
  have hw := h c hc
  constructor
  · rintro rfl
    exact absurd hw (by decide)
  · rintro rfl
    exact absurd hw (by decide)

theorem uncommentedFrom_append {as : List Char} (h : Plain as) (inside : Bool) (cs : List Char) :
    uncommentedFrom inside (as ++ cs) = as ++ uncommentedFrom inside cs := by
  induction as with
  | nil => rfl
  | cons a as ih =>
    obtain ⟨hsemi, hquote⟩ := h a List.mem_cons_self
    have htail : Plain as := fun c hc => h c (List.mem_cons_of_mem a hc)
    rw [List.cons_append, uncommentedFrom, if_neg hquote, ih htail]
    simp [hsemi]

theorem uncommentedFrom_idem (inside : Bool) (cs : List Char) :
    uncommentedFrom inside (uncommentedFrom inside cs) = uncommentedFrom inside cs := by
  induction cs generalizing inside with
  | nil => rfl
  | cons c cs ih =>
    by_cases h : (c = ';' && !inside) = true
    · rw [uncommentedFrom, if_pos h]
      rfl
    · rw [uncommentedFrom, if_neg h, uncommentedFrom, if_neg h, ih]

/-- A comment ends what is read, whatever is behind it; without one the reader goes on, inside
quotes if it began there or has passed an odd number of quotes, and not if both -/
theorem uncommentedFrom_append_eq (inside : Bool) (cs ds : List Char) :
    uncommentedFrom inside (cs ++ ds) =
      if uncommentedFrom inside cs = cs then
        cs ++ uncommentedFrom (inside ^^ decide (cs.count quote % 2 = 1)) ds
      else uncommentedFrom inside cs := by
  induction cs generalizing inside with
  | nil => simp [uncommentedFrom]
  | cons c cs ih =>
    rw [List.cons_append, uncommentedFrom, uncommentedFrom]
    by_cases hc : (c = ';' && !inside) = true
    · simp [hc]
    · simp only [if_neg hc, ih, List.cons.injEq, true_and]
      have hflip : ((if c = quote then !inside else inside) ^^ decide (cs.count quote % 2 = 1)) =
          (inside ^^ decide ((c :: cs).count quote % 2 = 1)) := by
        by_cases hq : c = quote
        · rw [if_pos hq, hq, List.count_cons_self]
          rcases Nat.mod_two_eq_zero_or_one (cs.count quote) with h | h
          · simp [h, Nat.add_mod]
          · simp [h, Nat.add_mod]
        · rw [if_neg hq, List.count_cons_of_ne hq]
      rw [hflip]
      generalize (if c = quote then !inside else inside) = next
      by_cases hcs : uncommentedFrom next cs = cs
      · rw [if_pos hcs, if_pos hcs, List.cons_append]
      · rw [if_neg hcs, if_neg hcs]

/-- White space and a comment behind a text that is not inside quotes add nothing but white
space -/
theorem uncommented_append_of_even {cs ws : List Char} (hws : White ws) {comment : List Char}
    (h : comment = [] ∨ (∃ ds, comment = ';' :: ds) ∧ (uncommented cs).count quote % 2 = 0) :
    ∃ vs, uncommented (cs ++ (ws ++ comment)) = uncommented cs ++ vs ∧ White vs := by
  rw [uncommented, uncommented, uncommentedFrom_append_eq]
  split
  · rename_i hcs
    refine ⟨ws, ?_, hws⟩
    rw [uncommentedFrom_append (.of_white hws), hcs]
    rcases h with rfl | ⟨⟨ds, rfl⟩, heven⟩
    · rw [uncommentedFrom, List.append_nil]
    · rw [uncommented, hcs] at heven
      simp [heven, uncommentedFrom]
  · exact ⟨[], (List.append_nil _).symm, .nil⟩

/-- A text without a comment has none in any part that it starts with -/
theorem uncommentedFrom_of_append {inside : Bool} {as bs : List Char}
    (h : uncommentedFrom inside (as ++ bs) = as ++ bs) : uncommentedFrom inside as = as := by
  induction as generalizing inside with
  | nil => rfl
  | cons a as ih =>
    by_cases hc : (a = ';' && !inside) = true
    · rw [List.cons_append, uncommentedFrom, if_pos hc] at h
      cases h
    · rw [List.cons_append, uncommentedFrom, if_neg hc] at h
      rw [uncommentedFrom, if_neg hc, ih (List.cons.inj h).2]

/-- What is cut out of a text for a template has no comment -/
theorem uncommented_trim (cs : List Char) :
    uncommented (Text.trim (uncommented cs)) = Text.trim (uncommented cs) := by
  obtain ⟨as, bs, hsplit, ha, _⟩ := Text.trim_split (uncommented cs)
  have h := uncommentedFrom_idem false cs
  change uncommentedFrom false (uncommented cs) = uncommented cs at h
  rw [hsplit, uncommentedFrom_append (.of_white ha)] at h
  exact uncommentedFrom_of_append (List.append_cancel_left h)

end RegisterMachine.Template
