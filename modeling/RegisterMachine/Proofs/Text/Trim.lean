import Mathlib.Data.List.TakeWhile
import RegisterMachine.Text.WhiteSpace

/-!
# `RegisterMachine.Proofs.Text.Trim` — what trimming takes away

Trimming takes white space off both ends and nothing else (`trim_split`), and
all of it: white space put around a text makes no difference (`trim_append`),
and what has been trimmed stays as it is (`trim_trim`).
-/

namespace RegisterMachine.Text

/-- A text of white space only -/
def White (cs : List Char) : Prop :=
  ∀ c ∈ cs, isWhiteSpace c = true

theorem White.nil : White [] :=
  fun _ hc => nomatch hc

theorem White.reverse {cs : List Char} (h : White cs) : White cs.reverse :=
  fun c hc => h c (List.mem_reverse.1 hc)

theorem trimStart_append {as : List Char} (h : White as) (cs : List Char) :
    trimStart (as ++ cs) = trimStart cs :=
  List.dropWhile_append_of_pos h

theorem trimEnd_append_white {bs : List Char} (h : White bs) (cs : List Char) :
    trimEnd (cs ++ bs) = trimEnd cs := by
  rw [trimEnd, List.reverse_append, List.dropWhile_append_of_pos h.reverse]
  rfl

theorem trim_append {as bs : List Char} (ha : White as) (hb : White bs) (cs : List Char) :
    trim (as ++ (cs ++ bs)) = trim cs := by
  rw [trim, trimStart_append ha, trim, trimStart, List.dropWhile_append]
  split
  · rename_i hcs
    -- the text itself is white: nothing is left on either side
    have hnil : trimStart cs = [] := List.isEmpty_iff.1 hcs
    rw [hnil, List.dropWhile_eq_nil_iff.2 hb]
  · exact trimEnd_append_white hb _

/-- Only white space is taken away -/
theorem trim_split (cs : List Char) :
    ∃ as bs, cs = as ++ (trim cs ++ bs) ∧ White as ∧ White bs := by
  refine ⟨cs.takeWhile isWhiteSpace, ((trimStart cs).reverse.takeWhile isWhiteSpace).reverse,
    ?_, fun _ => List.mem_takeWhile_imp, ?_⟩
  · rw [trim, trimEnd_append]
    exact List.takeWhile_append_dropWhile.symm
  · exact White.reverse fun _ => List.mem_takeWhile_imp

theorem trim_trim (cs : List Char) : trim (trim cs) = trim cs := by
  obtain ⟨as, bs, hcs, ha, hb⟩ := trim_split cs
  have h := trim_append ha hb (trim cs)
  rw [← hcs] at h
  exact h.symm

end RegisterMachine.Text
