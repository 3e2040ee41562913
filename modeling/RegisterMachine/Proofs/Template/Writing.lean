import Mathlib.Data.List.Chain
import RegisterMachine.Proofs.Template.Pieces

/-!
# `RegisterMachine.Proofs.Template.Writing` — the texts that a list of parts is read from

A template is read into its parts by `parts`.  `Writes` goes the other way and says
which texts have given parts, from the left to the right:

    a separator            adds no part, wherever it stands between parts
    a name                 is a register, and must not go on with what follows it
    a text in quotes       is that text, and may be followed by anything
    a quote never closed   is the rest of the template, and nothing follows it

A template has these parts exactly if they are written so (`parts_eq_iff`).  Thus what
happens to the parts when a template is made longer is seen without reading it: what
is put behind an even number of quotes is read as if it stood alone (`Writes.append`),
and a quote behind an odd number of them only closes the last text (`Writes.close`).
-/

namespace RegisterMachine.Template

/-- The texts that a list of parts is read from -/
inductive Writes : List Part → List Char → Prop
  | nil : Writes [] []
  | separator {c : Char} {ps : List Part} {rest : List Char} :
      isSeparator c = true → Writes ps rest → Writes ps (c :: rest)
  | name {word rest : List Char} {ps : List Part} :
      word ≠ [] → (∀ c ∈ word, isNameChar c = true) →
      (∀ c ∈ rest.head?, isNameChar c = false) → Writes ps rest →
      Writes (.register (String.ofList word) :: ps) (word ++ rest)
  | quoted {content rest : List Char} {ps : List Part} :
      quote ∉ content → Writes ps rest →
      Writes (.text (String.ofList content) :: ps) (quote :: (content ++ quote :: rest))
  | unclosed {content : List Char} :
      quote ∉ content → Writes [.text (String.ofList content)] (quote :: content)

theorem Writes.separators {gap cs : List Char} {ps : List Part} (hgap : Separators gap)
    (h : Writes ps cs) : Writes ps (gap ++ cs) := by
  induction gap with
  | nil => exact h
  | cons c gap ih =>
    obtain ⟨hc, hgap⟩ := List.forall_mem_cons.1 hgap
    exact .separator hc (ih hgap)

/-! ## Reading -/

/-- The parts of a text -/
def partsOf (cs : List Char) : List Part :=
  (pieces cs).filterMap Piece.part?

/-- The parts of a text are written in it -/
theorem writes_partsOf (cs : List Char) : Writes (partsOf cs) cs := by
  induction cs using pieces_induction with
  | nil =>
    rw [partsOf, pieces]
    exact .nil
  | separators hne hword hstop ih =>
    rw [partsOf, pieces_separators hne hword hstop]
    exact ih.separators hword
  | name hne hword hstop ih =>
    rw [partsOf, pieces_name hne hword hstop]
    exact .name hne hword hstop ih
  | quoted hcontent ih =>
    rw [partsOf, pieces_quoted hcontent]
    exact .quoted hcontent ih
  | unclosed hcontent =>
    rw [partsOf, pieces_unclosed hcontent]
    exact .unclosed hcontent

/-- One separator more in front of a text makes no difference to its parts, even where it becomes
a piece with others -/
theorem partsOf_separator {c : Char} (hc : isSeparator c = true) (cs : List Char) :
    partsOf (c :: cs) = partsOf cs := by
  have hskip : ∀ {d : Char} (ds : List Char), isSeparator d = true →
      partsOf (d :: ds) = partsOf (ds.dropWhile isSeparator) := by
    intro d ds hd
    rw [partsOf, pieces, if_pos hd]
    rfl
  rw [hskip cs hc]
  cases cs with
  | nil => rfl
  | cons d ds =>
    by_cases hd : isSeparator d = true
    · rw [List.dropWhile_cons_of_pos hd, hskip ds hd]
    · rw [List.dropWhile_cons_of_neg hd]

/-- A text has one list of parts, and they are read from it -/
theorem partsOf_of_writes {ps : List Part} {cs : List Char} (h : Writes ps cs) :
    partsOf cs = ps := by
  induction h with
  | nil => rw [partsOf, pieces]; rfl
  | separator hc _ ih => rw [partsOf_separator hc, ih]
  | name hne hword hstop _ ih =>
    rw [partsOf, pieces_name hne hword hstop]
    exact congrArg _ ih
  | quoted hcontent _ ih =>
    rw [partsOf, pieces_quoted hcontent]
    exact congrArg _ ih
  | unclosed hcontent =>
    rw [partsOf, pieces_unclosed hcontent]
    rfl

theorem parts_eq_iff {template : String} {ps : List Part} :
    parts template = ps ↔ Writes ps template.toList := by
  constructor
  · rintro rfl
    exact writes_partsOf template.toList
  · exact partsOf_of_writes

/-! ## Parts -/

/-- A part that some text is read as: a quoted text has no quote in it, and the name of a
register has neither quotes nor separators -/
def Part.Writable : Part → Prop
  | .text content => quote ∉ content.toList
  | .register name =>
    name ≠ "" ∧ ∀ c ∈ name.toList, c ≠ quote ∧ c ≠ ' ' ∧ c ≠ '\t' ∧ c ≠ ','

theorem Writes.writable {ps : List Part} {cs : List Char} (h : Writes ps cs) :
    ∀ part ∈ ps, part.Writable := by
  have htext : ∀ {content : List Char}, quote ∉ content →
      (Part.text (String.ofList content)).Writable := by
    intro content hcontent
    rwa [Part.Writable, String.toList_ofList]
  induction h with
  | nil => exact fun _ hpart => nomatch hpart
  | separator _ _ ih => exact ih
  | name hne hword _ _ ih =>
    refine List.forall_mem_cons.2 ⟨⟨?_, ?_⟩, ih⟩
    · intro hempty
      exact hne (String.ofList_injective hempty)
    · intro c hc
      rw [String.toList_ofList] at hc
      exact isNameChar_iff.1 (hword c hc)
  | quoted hcontent _ ih => exact List.forall_mem_cons.2 ⟨htext hcontent, ih⟩
  | unclosed hcontent =>
    exact List.forall_mem_cons.2 ⟨htext hcontent, fun _ hpart => nomatch hpart⟩

/-! ## Longer templates -/

theorem count_quote_separator {c : Char} (hc : isSeparator c = true) (rest : List Char) :
    (c :: rest).count quote = rest.count quote := by
  refine List.count_cons_of_ne ?_
  rintro rfl
  exact absurd hc (by decide)

theorem stop_append {rest more : List Char} (hrest : ∀ c ∈ rest.head?, isNameChar c = false)
    (hmore : ∀ c ∈ more.head?, isNameChar c = false) :
    ∀ c ∈ (rest ++ more).head?, isNameChar c = false := by
  cases rest with
  | nil => exact hmore
  | cons d rest => exact hrest

/-- What stands behind an even number of quotes is read as it is alone, if no name goes on there -/
theorem Writes.append {ps qs : List Part} {cs ds : List Char} (h : Writes ps cs)
    (heven : cs.count quote % 2 = 0) (hds : Writes qs ds)
    (hstop : ∀ c ∈ ds.head?, isNameChar c = false) : Writes (ps ++ qs) (cs ++ ds) := by
  induction h with
  | nil => exact hds
  | separator hc _ ih =>
    rw [count_quote_separator hc] at heven
    exact .separator hc (ih heven)
  | name hne hword hrest _ ih =>
    rw [count_quote_append (quote_not_mem_of_name hword)] at heven
    rw [List.append_assoc]
    exact .name hne hword (stop_append hrest hstop) (ih heven)
  | quoted hcontent _ ih =>
    rw [count_quote_quoted hcontent, Nat.add_mod_right] at heven
    simp only [List.cons_append, List.append_assoc]
    exact .quoted hcontent (ih heven)
  | unclosed hcontent =>
    -- the text would have one quote only
    rw [count_quote_unclosed hcontent] at heven
    cases heven

/-- A quote behind an odd number of quotes closes the last text and does nothing else -/
theorem Writes.close {ps : List Part} {cs : List Char} (h : Writes ps cs)
    (hodd : cs.count quote % 2 = 1) : Writes ps (cs ++ [quote]) := by
  have hstop : ∀ c ∈ [quote].head?, isNameChar c = false := by
    rintro c ⟨⟩
    exact isNameChar_quote
  induction h with
  | nil => cases hodd
  | separator hc _ ih =>
    rw [count_quote_separator hc] at hodd
    exact .separator hc (ih hodd)
  | name hne hword hrest _ ih =>
    rw [count_quote_append (quote_not_mem_of_name hword)] at hodd
    rw [List.append_assoc]
    exact .name hne hword (stop_append hrest hstop) (ih hodd)
  | quoted hcontent _ ih =>
    rw [count_quote_quoted hcontent, Nat.add_mod_right] at hodd
    simp only [List.cons_append, List.append_assoc]
    exact .quoted hcontent (ih hodd)
  | unclosed hcontent => exact .quoted hcontent .nil

/-! ## Written forms -/

/-- A part as it is written -/
def Part.written : Part → List Char
  | .text content => quote :: (content.toList ++ [quote])
  | .register name => name.toList

def Part.isRegister : Part → Bool
  | .text _ => false
  | .register _ => true

/-- Parts written one behind the other: a gap in front of them, and one behind each -/
def write (lead : List Char) (ps : List (Part × List Char)) : List Char :=
  lead ++ ps.flatMap fun x => x.1.written ++ x.2

/-- Gaps of separators, of which those between two registers are not empty -/
structure Gaps (lead : List Char) (ps : List (Part × List Char)) : Prop where
  lead : Separators lead
  behind : ∀ x ∈ ps, Separators x.2
  between : ps.IsChain fun x y => x.1.isRegister = true → y.1.isRegister = true → x.2 ≠ []

theorem Gaps.tail {lead : List Char} {x : Part × List Char} {ps : List (Part × List Char)}
    (h : Gaps lead (x :: ps)) : Gaps x.2 ps := by
  obtain ⟨hx, hps⟩ := List.forall_mem_cons.1 h.behind
  exact ⟨hx, hps, h.between.tail⟩

/-- The written form of a part that is no register starts with a quote -/
theorem head_written {part : Part} (h : part.isRegister ≠ true) (rest : List Char) :
    (part.written ++ rest).head? = some quote := by
  cases part with
  | text content => rfl
  | register name => exact absurd rfl h

/-- No name goes on behind the gap of a register -/
theorem Gaps.stop {lead : List Char} {name : String} {gap : List Char}
    {ps : List (Part × List Char)} (h : Gaps lead ((.register name, gap) :: ps)) :
    ∀ c ∈ (write gap ps).head?, isNameChar c = false := by
  intro c hc
  have hgap : Separators gap := h.tail.lead
  rw [write] at hc
  cases gap with
  | cons d gap =>
    rw [List.cons_append, List.head?_cons, Option.mem_some_iff] at hc
    exact hc ▸ isNameChar_of_isSeparator (hgap d List.mem_cons_self)
  | nil =>
    cases ps with
    | nil => cases hc
    | cons y ps =>
      have hy : y.1.isRegister ≠ true := by
        intro hy
        exact (List.isChain_cons_cons.1 h.between).1 rfl hy rfl
      rw [List.nil_append, List.flatMap_cons, List.append_assoc, head_written hy] at hc
      cases hc
      exact isNameChar_quote

/-- Parts are read back from their written form, whatever the gaps -/
theorem writes_write {lead : List Char} {ps : List (Part × List Char)} (hgaps : Gaps lead ps)
    (hps : ∀ x ∈ ps, x.1.Writable) : Writes (ps.map Prod.fst) (write lead ps) := by
  induction ps generalizing lead with
  | nil => exact Writes.nil.separators hgaps.lead
  | cons x ps ih =>
    obtain ⟨part, gap⟩ := x
    obtain ⟨hpart, hps⟩ := List.forall_mem_cons.1 hps
    have hrest : Writes (ps.map Prod.fst) (write gap ps) := ih hgaps.tail hps
    have hcons : write lead ((part, gap) :: ps) = lead ++ (part.written ++ write gap ps) := by
      simp only [write, List.flatMap_cons, List.append_assoc]
    rw [hcons]
    refine Writes.separators hgaps.lead ?_
    cases part with
    | text content =>
      have hcontent : quote ∉ content.toList := hpart
      have h := Writes.quoted hcontent hrest
      rw [String.ofList_toList] at h
      simpa [Part.written] using h
    | register name =>
      obtain ⟨hne, hname⟩ := hpart
      have hnil : name.toList ≠ [] := fun hnil => hne (String.toList_inj.1 hnil)
      have hword : ∀ c ∈ name.toList, isNameChar c = true := fun c hc =>
        isNameChar_iff.2 (hname c hc)
      have h := Writes.name hnil hword hgaps.stop hrest
      rwa [String.ofList_toList] at h

end RegisterMachine.Template
