import RegisterMachine.Proofs.Token.Render
import RegisterMachine.Template

/-!
# `RegisterMachine.Proofs.Template.Pieces` — how a text falls into pieces

A text starts with one piece and goes on behind it.  The four ways in which it can do
so are stated twice: as equations, which say what the pieces are of a text that is put
together so (`pieces_separators`, `pieces_name`, `pieces_quoted`, `pieces_unclosed`), and
as an induction, which says that every text is put together so (`pieces_induction`).

    piece       of these characters          what follows must not start with
    separator   separators                   a separator
    name        neither quotes nor these     a character of a name
    quoted      any but quotes, in quotes    (anything may follow)
    unclosed    any but quotes, behind one   (nothing follows)
-/

namespace RegisterMachine.Template

open Token (takeWhile_append_of_stop stop_dropWhile)

/-! ## Characters -/

/-- A text of separators only -/
def Separators (cs : List Char) : Prop :=
  ∀ c ∈ cs, isSeparator c = true

theorem isNameChar_iff {c : Char} :
    isNameChar c = true ↔ c ≠ quote ∧ c ≠ ' ' ∧ c ≠ '\t' ∧ c ≠ ',' := by
  simp [isNameChar, isSeparator, and_assoc]

theorem isSeparator_quote : isSeparator quote = false := by decide

theorem isNameChar_quote : isNameChar quote = false := by decide

theorem isNameChar_of_isSeparator {c : Char} (h : isSeparator c = true) :
    isNameChar c = false := by
  simp [isNameChar, h]

theorem Separators.quote_not_mem {cs : List Char} (h : Separators cs) : quote ∉ cs :=
  fun hmem => absurd (h quote hmem) (by decide)

theorem quote_not_mem_of_name {word : List Char} (h : ∀ c ∈ word, isNameChar c = true) :
    quote ∉ word :=
  fun hmem => absurd (h quote hmem) (by decide)

theorem quote_not_mem_iff {cs : List Char} : quote ∉ cs ↔ ∀ c ∈ cs, (c != quote) = true := by
  simp only [bne_iff_ne]
  constructor
  · rintro h c hc rfl
    exact h hc
  · intro h hmem
    exact h quote hmem rfl

/-! ## The first piece -/

variable {word content rest : List Char}

theorem pieces_separators (hne : word ≠ []) (hword : Separators word)
    (hrest : ∀ c ∈ rest.head?, isSeparator c = false) :
    pieces (word ++ rest) = .separator word :: pieces rest := by
  cases word with
  | nil => exact absurd rfl hne
  | cons c word =>
    obtain ⟨hc, hword⟩ := List.forall_mem_cons.1 hword
    obtain ⟨htake, hdrop⟩ := takeWhile_append_of_stop hword hrest
    rw [List.cons_append, pieces, if_pos hc, htake, hdrop]

theorem pieces_name (hne : word ≠ []) (hword : ∀ c ∈ word, isNameChar c = true)
    (hrest : ∀ c ∈ rest.head?, isNameChar c = false) :
    pieces (word ++ rest) = .name word :: pieces rest := by
  cases word with
  | nil => exact absurd rfl hne
  | cons c word =>
    obtain ⟨hc, hword⟩ := List.forall_mem_cons.1 hword
    obtain ⟨htake, hdrop⟩ := takeWhile_append_of_stop hword hrest
    have hsep : ¬ isSeparator c = true := by
      intro hsep
      rw [isNameChar_of_isSeparator hsep] at hc
      cases hc
    rw [List.cons_append, pieces, if_neg hsep, if_neg (isNameChar_iff.1 hc).1, htake, hdrop]

theorem pieces_quoted (h : quote ∉ content) (rest : List Char) :
    pieces (quote :: (content ++ quote :: rest)) = .quoted content true :: pieces rest := by
  have hstop : ∀ c ∈ (quote :: rest).head?, (c != quote) = false := by simp
  obtain ⟨htake, hdrop⟩ := takeWhile_append_of_stop (quote_not_mem_iff.1 h) hstop
  rw [pieces, if_neg (by simp [isSeparator_quote]), if_pos rfl]
  split
  · rename_i hnil
    rw [hdrop] at hnil
    cases hnil
  · rename_i hcons
    rw [hdrop] at hcons
    cases hcons
    rw [htake]

theorem pieces_unclosed (h : quote ∉ content) :
    pieces (quote :: content) = [.quoted content false] := by
  have hdrop := List.dropWhile_eq_nil_iff.2 (quote_not_mem_iff.1 h)
  rw [pieces, if_neg (by simp [isSeparator_quote]), if_pos rfl]
  split
  · rfl
  · rename_i hcons
    rw [hdrop] at hcons
    cases hcons

/-- Every text is made of pieces -/
theorem pieces_induction {motive : List Char → Prop} (nil : motive [])
    (separators : ∀ {word rest : List Char}, word ≠ [] → Separators word →
      (∀ c ∈ rest.head?, isSeparator c = false) → motive rest → motive (word ++ rest))
    (name : ∀ {word rest : List Char}, word ≠ [] → (∀ c ∈ word, isNameChar c = true) →
      (∀ c ∈ rest.head?, isNameChar c = false) → motive rest → motive (word ++ rest))
    (quoted : ∀ {content rest : List Char}, quote ∉ content → motive rest →
      motive (quote :: (content ++ quote :: rest)))
    (unclosed : ∀ {content : List Char}, quote ∉ content → motive (quote :: content))
    (cs : List Char) : motive cs := by
  fun_induction pieces cs with
  | case1 => exact nil
  | case2 c cs hc ih =>
    have hword : Separators (c :: cs.takeWhile isSeparator) :=
      List.forall_mem_cons.2 ⟨hc, fun _ => List.mem_takeWhile_imp⟩
    have h := separators (List.cons_ne_nil _ _) hword stop_dropWhile ih
    rwa [List.cons_append, List.takeWhile_append_dropWhile] at h
  | case3 cs hdrop =>
    exact unclosed (quote_not_mem_iff.2 (List.dropWhile_eq_nil_iff.1 hdrop))
  | case4 cs d rest hdrop _ ih =>
    have hd : d = quote := by simpa using head_dropWhile hdrop
    have hsplit := List.takeWhile_append_dropWhile (p := (· != quote)) (l := cs)
    rw [hdrop, hd] at hsplit
    have hcontent : quote ∉ cs.takeWhile (· != quote) :=
      quote_not_mem_iff.2 fun _ => List.mem_takeWhile_imp
    have h := quoted hcontent ih
    rwa [hsplit] at h
  | case5 c cs hc hquote ih =>
    have hname : isNameChar c = true := by
      simp [isNameChar, hc, hquote]
    have hword : ∀ d ∈ c :: cs.takeWhile isNameChar, isNameChar d = true :=
      List.forall_mem_cons.2 ⟨hname, fun _ => List.mem_takeWhile_imp⟩
    have h := name (List.cons_ne_nil _ _) hword stop_dropWhile ih
    rwa [List.cons_append, List.takeWhile_append_dropWhile] at h

/-! ## Quotes in a text made of pieces -/

theorem count_quote_append (h : quote ∉ word) (rest : List Char) :
    (word ++ rest).count quote = rest.count quote := by
  rw [List.count_append, List.count_eq_zero_of_not_mem h, Nat.zero_add]

theorem count_quote_quoted (h : quote ∉ content) (rest : List Char) :
    (quote :: (content ++ quote :: rest)).count quote = rest.count quote + 2 := by
  rw [List.count_cons_self, count_quote_append h, List.count_cons_self]

theorem count_quote_unclosed (h : quote ∉ content) : (quote :: content).count quote = 1 := by
  rw [List.count_cons_self, List.count_eq_zero_of_not_mem h]

end RegisterMachine.Template
