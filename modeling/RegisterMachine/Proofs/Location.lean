import Mathlib.Data.List.Induction
import RegisterMachine.Location

/-!
# `RegisterMachine.Proofs.Location` — where a place in a text is, and where it is reported

The place behind some text has a line and a column that only this text decides
(`behind`).  A report counts characters up to the place it is told
(`Location.advance`).  In a text whose lines end at newlines and nowhere else the
two agree as long as there is text behind the place (`advance_append`).  They
differ in two cases.

    the place is told too far on           what is reported is later, or not there
    the text ends there, with a newline    the newline is a column, not a new line
-/

namespace RegisterMachine.Location

/-- The line and the column behind a text: its newlines, and the characters behind the last -/
def behind (before : List Char) : Location where
  line := before.count '\n' + 1
  column := (before.reverse.takeWhile (· != '\n')).length + 1

/-- Where a character leads to in a text that goes on -/
def past (l : Location) (c : Char) : Location :=
  if c = '\n' then l.nextLine else l.nextColumn

/-- The characters that end lines -/
def breaks : List Char :=
  ['\n', '\r', '\x0b', '\x0c', '\u0085', '\u2028', '\u2029']

/-- No character but the newline ends a line -/
def NewlinesOnly (cs : List Char) : Prop :=
  ∀ c ∈ cs, c ∈ breaks → c = '\n'

instance (cs : List Char) : Decidable (NewlinesOnly cs) :=
  List.decidableBAll (fun c => c ∈ breaks → c = '\n') cs

/-- Further on in a text -/
def Earlier (l m : Location) : Prop :=
  l.line < m.line ∨ l.line = m.line ∧ l.column < m.column

/-! ## Behind a text -/

theorem behind_nil : behind [] = ⟨1, 1⟩ := rfl

theorem behind_concat (before : List Char) (c : Char) :
    behind (before ++ [c]) = (behind before).past c := by
  rw [behind, past, List.count_append, List.reverse_append, List.reverse_singleton,
    List.singleton_append, List.takeWhile_cons]
  by_cases hc : c = '\n'
  · simp [hc, behind, nextLine]
  · simp [hc, behind, nextColumn]

theorem foldl_past (before : List Char) : before.foldl past ⟨1, 1⟩ = behind before := by
  induction before using List.reverseRecOn with
  | nil => rfl
  | append_singleton before c ih =>
    rw [List.foldl_append, ih, behind_concat]
    rfl

/-! ## Counting characters -/

theorem NewlinesOnly.endsLine_eq {c : Char} {cs : List Char} (h : NewlinesOnly (c :: cs)) :
    endsLine c cs = (c == '\n') := by
  have hc := h c List.mem_cons_self
  by_cases hn : c = '\n'
  · rw [hn]
    rfl
  · have hb : c ∉ breaks := fun hmem => hn (hc hmem)
    simp only [breaks, List.mem_cons, List.not_mem_nil, or_false, not_or] at hb
    simp [endsLine, hb]

theorem NewlinesOnly.tail {c : Char} {cs : List Char} (h : NewlinesOnly (c :: cs)) :
    NewlinesOnly cs :=
  fun d hd => h d (List.mem_cons_of_mem c hd)

/-- With text behind it, a place is found behind the text before it -/
theorem advance_append {before behind : List Char} (h : NewlinesOnly (before ++ behind))
    (hb : behind ≠ []) (l : Location) (n : Nat) :
    l.advance (before.length + n) (before ++ behind) = (before.foldl past l).advance n behind := by
  induction before generalizing l with
  | nil => rw [List.length_nil, Nat.zero_add]; rfl
  | cons c before ih =>
    have hne : (before ++ behind).isEmpty = false := by
      simp [hb]
    have hc : endsLine c (before ++ behind) = (c == '\n') := h.endsLine_eq
    rw [List.length_cons, Nat.add_right_comm, List.cons_append, advance, hc, hne,
      List.foldl_cons, past]
    by_cases hc : c = '\n'
    · simpa [hc] using ih h.tail l.nextLine
    · simpa [hc] using ih h.tail l.nextColumn

theorem Earlier.trans {l m k : Location} (h : l.Earlier m) (h' : m.Earlier k) : l.Earlier k := by
  unfold Earlier at *
  omega

theorem Earlier.ne {l m : Location} (h : l.Earlier m) : l ≠ m := by
  rintro rfl
  unfold Earlier at h
  omega

theorem earlier_nextLine (l : Location) : l.Earlier l.nextLine :=
  .inl (Nat.lt_succ_self l.line)

theorem earlier_nextColumn (l : Location) : l.Earlier l.nextColumn :=
  .inr ⟨rfl, Nat.lt_succ_self l.column⟩

/-- Every character leads further on -/
theorem earlier_of_advance {l m : Location} {n : Nat} {cs : List Char}
    (h : l.advance (n + 1) cs = some m) : l.Earlier m := by
  induction n generalizing l cs with
  | zero =>
    cases cs with
    | nil => cases h
    | cons c cs =>
      rw [advance] at h
      split at h <;> cases h
      · exact l.earlier_nextLine
      · exact l.earlier_nextColumn
  | succ n ih =>
    cases cs with
    | nil => cases h
    | cons c cs =>
      rw [advance] at h
      split at h
      · exact l.earlier_nextLine.trans (ih h)
      · exact l.earlier_nextColumn.trans (ih h)

theorem advance_nil {l : Location} {n : Nat} (h : 0 < n) : l.advance n [] = none := by
  cases n with
  | zero => cases h
  | succ n => rfl

theorem advance_eq_none {l : Location} {n : Nat} {cs : List Char} (h : cs.length < n) :
    l.advance n cs = none := by
  induction cs generalizing l n with
  | nil => exact advance_nil h
  | cons c cs ih =>
    obtain ⟨m, rfl⟩ := Nat.exists_eq_succ_of_ne_zero (Nat.ne_of_gt (Nat.zero_lt_of_lt h))
    have hm : cs.length < m := Nat.lt_of_succ_lt_succ h
    rw [advance]
    split
    · exact ih hm
    · exact ih hm

/-! ## The report of a place -/

/-- What is reported for a place is its location exactly if the place is told as it is, and is not
behind a newline at the end of the text -/
theorem advance_eq_behind_iff {before rest : List Char} {n : Nat}
    (h : NewlinesOnly (before ++ rest)) (hn : before.length ≤ n) :
    (⟨1, 1⟩ : Location).advance n (before ++ rest) = some (behind before) ↔
      n = before.length ∧ ¬ (rest = [] ∧ before.getLast? = some '\n') := by
  obtain ⟨k, rfl⟩ := Nat.exists_eq_add_of_le hn
  by_cases hrest : rest = []
  · subst hrest
    rw [List.append_nil] at h ⊢
    cases k with
    | succ k =>
      rw [advance_eq_none (Nat.lt_add_of_pos_right (Nat.succ_pos k))]
      simp
    | zero =>
      cases before using List.reverseRecOn with
      | nil => simp [advance, behind_nil]
      | append_singleton init c =>
        -- the last character is the one that the end of the text is behind
        have hlast := advance_append h (List.cons_ne_nil c []) ⟨1, 1⟩ 1
        rw [foldl_past] at hlast
        rw [Nat.add_zero, List.length_append, List.length_singleton, hlast, behind_concat, past,
          advance, List.isEmpty_nil, Bool.not_true, Bool.and_false, if_neg Bool.false_ne_true,
          advance]
        by_cases hc : c = '\n'
        · simp [hc, nextColumn, nextLine]
        · simp [hc]
  · rw [advance_append h hrest, foldl_past]
    cases k with
    | zero => simp [advance, hrest]
    | succ k =>
      constructor
      · intro hadvance
        exact absurd rfl (earlier_of_advance hadvance).ne
      · rintro ⟨hk, _⟩
        omega

end RegisterMachine.Location
