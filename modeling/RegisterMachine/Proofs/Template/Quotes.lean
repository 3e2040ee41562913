import RegisterMachine.Proofs.Line.RoundTrip
import RegisterMachine.Proofs.Template.Pieces

/-!
# `RegisterMachine.Proofs.Template.Quotes` — two ways to tell what is quoted

What is quoted in a text is decided twice, and each time from the left to the right:

    reader of lines         counts quotes, up to the first semicolon behind an even number
    reader of templates     takes pieces, of which some are quoted texts

The first decision is made when a line is read and the second when its message is put
out.  They agree at each place but those of the quotes themselves (`quoted_iff`): a
place is in a quoted piece exactly if there is an odd number of quotes before it.  So a
comment begins at the first semicolon that the pieces have outside quoted texts, and no
template of a line has such a semicolon (`quotes_agree`).
-/

namespace RegisterMachine.Template

/-! ## Places in pieces -/

/-- The place `n` of the text that these pieces make is the place `i` of this piece -/
inductive Lies : List Piece → Nat → Piece → Nat → Prop
  | first {p : Piece} {ps : List Piece} {i : Nat} : i < p.raw.length → Lies (p :: ps) i p i
  | behind {q : Piece} {ps : List Piece} {n : Nat} {p : Piece} {i : Nat} :
      Lies ps n p i → Lies (q :: ps) (q.raw.length + n) p i

def Piece.isQuoted : Piece → Bool
  | .quoted _ _ => true
  | .separator _ | .name _ => false

/-- The place of a text is in a quoted piece of it, its quotes included -/
def Quoted (cs : List Char) (n : Nat) : Prop :=
  ∃ p i, Lies (pieces cs) n p i ∧ p.isQuoted = true

theorem Lies.mem {ps : List Piece} {n : Nat} {p : Piece} {i : Nat} (h : Lies ps n p i) :
    p ∈ ps := by
  induction h with
  | first _ => exact List.mem_cons_self
  | behind _ ih => exact List.mem_cons_of_mem _ ih

/-- The character at a place is that of the piece -/
theorem Lies.getElem?_eq {ps : List Piece} {n : Nat} {p : Piece} {i : Nat} (h : Lies ps n p i) :
    (ps.flatMap Piece.raw)[n]? = p.raw[i]? := by
  induction h with
  | first hi => rw [List.flatMap_cons, List.getElem?_append_left hi]
  | behind _ ih =>
    rw [List.flatMap_cons, List.getElem?_append_right (Nat.le_add_right _ _),
      Nat.add_sub_cancel_left, ih]

/-- No place is in two pieces -/
theorem Lies.unique {ps : List Piece} {n : Nat} {p q : Piece} {i j : Nat} (h : Lies ps n p i)
    (h' : Lies ps n q j) : p = q := by
  induction h with
  | first hi =>
    cases h' with
    | first _ => rfl
    | behind _ => omega
  | @behind r ps n p i _ ih =>
    generalize hm : r.raw.length + n = m at h'
    cases h' with
    | first hj => omega
    | behind h' =>
      rw [Nat.add_left_cancel hm] at ih
      exact ih h'

/-- The places of a piece -/
theorem exists_lies_of_mem {ps : List Piece} {p : Piece} {i : Nat} (hp : p ∈ ps)
    (hi : i < p.raw.length) : ∃ n, Lies ps n p i := by
  induction ps with
  | nil => cases hp
  | cons q ps ih =>
    rcases List.mem_cons.1 hp with rfl | hp
    · exact ⟨i, .first hi⟩
    · obtain ⟨n, hn⟩ := ih hp
      exact ⟨_, .behind hn⟩

/-! ## Quoted places -/

section

variable {q : Piece} {rest : List Char} (hpieces : pieces (q.raw ++ rest) = q :: pieces rest)
include hpieces

theorem quoted_first_iff {n : Nat} (hn : n < q.raw.length) :
    Quoted (q.raw ++ rest) n ↔ q.isQuoted = true := by
  unfold Quoted
  rw [hpieces]
  constructor
  · rintro ⟨p, i, hlies, hp⟩
    rwa [← hlies.unique (.first hn)]
  · intro hq
    exact ⟨q, n, .first hn, hq⟩

theorem quoted_behind_iff {n : Nat} :
    Quoted (q.raw ++ rest) (q.raw.length + n) ↔ Quoted rest n := by
  unfold Quoted
  rw [hpieces]
  constructor
  · rintro ⟨p, i, hlies, hp⟩
    generalize hm : q.raw.length + n = m at hlies
    cases hlies with
    | first hi => omega
    | behind hlies => exact ⟨p, i, Nat.add_left_cancel hm ▸ hlies, hp⟩
  · rintro ⟨p, i, hlies, hp⟩
    exact ⟨p, i, .behind hlies, hp⟩

end

/-- Each place of the text but those of its quotes is quoted exactly if it is behind an odd number
of quotes -/
def Agrees (cs : List Char) : Prop :=
  ∀ (n : Nat) (c : Char), cs[n]? = some c → c ≠ quote →
    (Quoted cs n ↔ (cs.take n).count quote % 2 = 1)

/-- What holds of the first piece and of the rest holds of both, as the first piece has both its
quotes or there is no rest -/
theorem Agrees.of_first {q : Piece} {rest : List Char}
    (hpieces : pieces (q.raw ++ rest) = q :: pieces rest)
    (heven : rest = [] ∨ q.raw.count quote % 2 = 0)
    (hfirst : ∀ (n : Nat) (c : Char), q.raw[n]? = some c → c ≠ quote →
      (q.isQuoted = true ↔ (q.raw.take n).count quote % 2 = 1))
    (hrest : Agrees rest) : Agrees (q.raw ++ rest) := by
  intro n c hn hc
  rcases Nat.lt_or_ge n q.raw.length with hlt | hge
  · rw [List.getElem?_append_left hlt] at hn
    rw [quoted_first_iff hpieces hlt, List.take_append_of_le_length (Nat.le_of_lt hlt)]
    exact hfirst n c hn hc
  · obtain ⟨m, rfl⟩ := Nat.exists_eq_add_of_le hge
    rw [List.getElem?_append_right hge, Nat.add_sub_cancel_left] at hn
    have heven : q.raw.count quote % 2 = 0 := by
      refine heven.resolve_left ?_
      rintro rfl
      cases hn
    rw [quoted_behind_iff hpieces, List.take_length_add_append, List.count_append, Nat.add_mod,
      heven, Nat.zero_add, Nat.mod_mod]
    exact hrest m c hn hc

/-- A first piece without quotes has no quoted place -/
theorem Agrees.of_unquoted {q : Piece} {rest : List Char}
    (hpieces : pieces (q.raw ++ rest) = q :: pieces rest) (hq : q.isQuoted = false)
    (hnone : quote ∉ q.raw) (hrest : Agrees rest) : Agrees (q.raw ++ rest) := by
  have hcount : ∀ n, (q.raw.take n).count quote = 0 := fun n =>
    List.count_eq_zero_of_not_mem fun hmem => hnone (List.mem_of_mem_take hmem)
  refine .of_first hpieces (.inr (by rw [List.count_eq_zero_of_not_mem hnone])) ?_ hrest
  intro n c _ _
  rw [hq, hcount n]
  decide

/-- What is not a quote of a quoted text is between its quotes -/
theorem getElem?_content {content : List Char} {closed : Bool} {n : Nat} {c : Char}
    (hn : (Piece.quoted content closed).raw[n]? = some c) (hc : c ≠ quote) :
    ∃ i, n = i + 1 ∧ content[i]? = some c := by
  cases n with
  | zero =>
    cases hn
    exact absurd rfl hc
  | succ i =>
    refine ⟨i, rfl, ?_⟩
    rw [Piece.raw, List.cons_append, List.getElem?_cons_succ] at hn
    rcases Nat.lt_or_ge i content.length with hlt | hge
    · rwa [List.getElem?_append_left hlt] at hn
    · rw [List.getElem?_append_right hge] at hn
      have hmem := List.mem_of_getElem? hn
      cases closed with
      | false => cases hmem
      | true => exact absurd (List.mem_singleton.1 hmem) hc

/-- Inside quotes there is one quote before each place -/
theorem odd_take_of_quoted {content : List Char} {closed : Bool} (h : quote ∉ content) {n : Nat}
    {c : Char} (hn : (Piece.quoted content closed).raw[n]? = some c) (hc : c ≠ quote) :
    ((Piece.quoted content closed).raw.take n).count quote % 2 = 1 := by
  obtain ⟨i, rfl, hi⟩ := getElem?_content hn hc
  have hlt := (List.getElem?_eq_some_iff.1 hi).1
  have hnone : quote ∉ content.take i := fun hmem => h (List.mem_of_mem_take hmem)
  rw [Piece.raw, List.cons_append, List.take_succ_cons, List.count_cons_self,
    List.take_append_of_le_length (Nat.le_of_lt hlt), List.count_eq_zero_of_not_mem hnone]

/-- All of a quoted first piece is quoted -/
theorem Agrees.of_quoted {content rest : List Char} {closed : Bool}
    (hpieces : pieces ((Piece.quoted content closed).raw ++ rest) =
      .quoted content closed :: pieces rest)
    (hcontent : quote ∉ content)
    (heven : rest = [] ∨ (Piece.quoted content closed).raw.count quote % 2 = 0)
    (hrest : Agrees rest) : Agrees ((Piece.quoted content closed).raw ++ rest) := by
  refine .of_first hpieces heven ?_ hrest
  intro n c hn hc
  exact iff_of_true rfl (odd_take_of_quoted hcontent hn hc)

theorem agrees_nil : Agrees [] := by
  intro n c hn
  cases hn

theorem agrees (cs : List Char) : Agrees cs := by
  induction cs using pieces_induction with
  | nil => exact agrees_nil
  | @separators word rest hne hword hstop ih =>
    exact .of_unquoted (q := .separator word) (pieces_separators hne hword hstop) rfl
      hword.quote_not_mem ih
  | @name word rest hne hword hstop ih =>
    exact .of_unquoted (q := .name word) (pieces_name hne hword hstop) rfl
      (quote_not_mem_of_name hword) ih
  | @quoted content rest hcontent ih =>
    have hraw : quote :: (content ++ quote :: rest) = (Piece.quoted content true).raw ++ rest := by
      simp [Piece.raw]
    have hpieces := pieces_quoted hcontent rest
    have heven : (Piece.quoted content true).raw.count quote % 2 = 0 := by
      have h := count_quote_quoted hcontent []
      simp only [List.count_nil, Nat.zero_add] at h
      rw [Piece.raw, if_pos rfl, List.cons_append, h]
    rw [hraw] at hpieces ⊢
    exact .of_quoted hpieces hcontent (.inr heven) ih
  | @unclosed content hcontent =>
    have hraw : quote :: content = (Piece.quoted content false).raw ++ [] := by
      simp [Piece.raw]
    have hpieces := pieces_unclosed hcontent
    rw [hraw] at hpieces ⊢
    exact .of_quoted (by rw [hpieces, pieces]) hcontent (.inl rfl) agrees_nil

/-- A place in quoted pieces is one behind an odd number of quotes -/
theorem quoted_iff {cs : List Char} {n : Nat} {c : Char} (hn : cs[n]? = some c) (hc : c ≠ quote) :
    Quoted cs n ↔ (cs.take n).count quote % 2 = 1 :=
  agrees cs n c hn hc

/-- Whether a place is quoted does not depend on what is behind it -/
theorem quoted_append_iff {cs : List Char} {n : Nat} {c : Char} (hn : cs[n]? = some c)
    (hc : c ≠ quote) (behind : List Char) : Quoted (cs ++ behind) n ↔ Quoted cs n := by
  have hlt := (List.getElem?_eq_some_iff.1 hn).1
  have hn' : (cs ++ behind)[n]? = some c := by rwa [List.getElem?_append_left hlt]
  rw [quoted_iff hn' hc, quoted_iff hn hc, List.take_append_of_le_length (Nat.le_of_lt hlt)]

theorem not_quoted_of_even {cs : List Char} (heven : cs.count quote % 2 = 0) {c : Char}
    (hc : c ≠ quote) (behind : List Char) : ¬ Quoted (cs ++ c :: behind) cs.length := by
  have hn : (cs ++ c :: behind)[cs.length]? = some c := by simp
  rw [quoted_iff hn hc, List.take_left, heven]
  decide

/-! ## Semicolons -/

/-- Where a text is cut off there is a semicolon, and the reader is not inside quotes -/
theorem uncommentedFrom_cut {inside : Bool} {cs : List Char}
    (h : uncommentedFrom inside cs ≠ cs) :
    (∃ rest, cs = uncommentedFrom inside cs ++ ';' :: rest) ∧
      (inside ^^ decide ((uncommentedFrom inside cs).count quote % 2 = 1)) = false := by
  obtain ⟨rest, hrest⟩ := uncommentedFrom_prefix inside cs
  cases rest with
  | nil => exact absurd (by rwa [List.append_nil] at hrest) h
  | cons c rest =>
    -- what is read before the place stays the same, so it is the place where reading ends
    have hread := uncommentedFrom_append_eq inside (uncommentedFrom inside cs) (c :: rest)
    rw [hrest, if_pos (uncommentedFrom_idem inside cs), uncommentedFrom] at hread
    split at hread
    · rename_i hc
      simp only [Bool.and_eq_true, decide_eq_true_eq, Bool.not_eq_true'] at hc
      exact ⟨⟨rest, by rw [hc.1] at hrest; exact hrest.symm⟩, hc.2⟩
    · exact absurd hread (by simp)

theorem uncommented_cut {cs : List Char} (h : uncommented cs ≠ cs) :
    (∃ rest, cs = uncommented cs ++ ';' :: rest) ∧ (uncommented cs).count quote % 2 = 0 := by
  obtain ⟨hrest, heven⟩ := uncommentedFrom_cut h
  rw [Bool.false_xor, decide_eq_false_iff_not] at heven
  exact ⟨hrest, Nat.mod_two_ne_one.1 heven⟩

/-- A semicolon in a text without a comment is behind an odd number of quotes -/
theorem odd_of_semicolon {before behind : List Char}
    (h : uncommented (before ++ ';' :: behind) = before ++ ';' :: behind) :
    before.count quote % 2 = 1 := by
  have hread := uncommentedFrom_append_eq false before (';' :: behind)
  change uncommented (before ++ ';' :: behind) = _ at hread
  rw [h, if_pos (uncommentedFrom_of_append h), List.append_cancel_left_eq] at hread
  by_contra heven
  simp [uncommentedFrom, heven] at hread

/-- So it is quoted -/
theorem quoted_of_semicolon {cs : List Char} (h : uncommented cs = cs) {n : Nat}
    (hn : cs[n]? = some ';') : Quoted cs n := by
  obtain ⟨hlt, hsemi⟩ := List.getElem?_eq_some_iff.1 hn
  have hsplit : cs = cs.take n ++ ';' :: cs.drop (n + 1) := by
    rw [← hsemi, ← List.drop_eq_getElem_cons hlt, List.take_append_drop]
  rw [hsplit] at h
  exact (quoted_iff hn (by decide)).2 (odd_of_semicolon h)

/-- The semicolon of a comment is not quoted, and all semicolons before it are -/
theorem quoted_before_comment {cs : List Char} (h : uncommented cs = cs)
    (heven : cs.count quote % 2 = 0) (comment : List Char) :
    ¬ Quoted (cs ++ ';' :: comment) cs.length ∧
      ∀ n < cs.length, (cs ++ ';' :: comment)[n]? = some ';' → Quoted (cs ++ ';' :: comment) n := by
  refine ⟨not_quoted_of_even heven (by decide) comment, ?_⟩
  intro n hlt hn
  rw [List.getElem?_append_left hlt] at hn
  exact (quoted_append_iff hn (by decide) _).2 (quoted_of_semicolon h hn)

/-- A template of a line has no comment -/
theorem uncommented_of_parse {l : Line} {template : String}
    (h : l.parse = .ok (.message template)) :
    uncommented template.toList = template.toList :=
  ((Line.writable_of_parse h).bare template rfl).no_comment

theorem piece_of_register {template name : String} (h : .register name ∈ parts template) :
    .name name.toList ∈ pieces template.toList := by
  obtain ⟨p, hp, hpart⟩ := List.mem_filterMap.1 h
  cases p with
  | separator cs => cases hpart
  | quoted content closed => cases hpart
  | name cs =>
    cases hpart
    rwa [String.toList_ofList]

/-- No name has a quoted semicolon in it -/
theorem semicolon_not_mem_of_register {template name : String}
    (h : uncommented template.toList = template.toList)
    (hname : .register name ∈ parts template) : ';' ∉ name.toList := by
  intro hmem
  obtain ⟨i, hi⟩ := List.mem_iff_getElem?.1 hmem
  obtain ⟨n, hlies⟩ := exists_lies_of_mem (piece_of_register hname)
    (List.getElem?_eq_some_iff.1 hi).1
  have hn : template.toList[n]? = some ';' := by
    rw [← flatMap_raw_pieces template.toList, hlies.getElem?_eq]
    exact hi
  obtain ⟨p, j, hquoted, hp⟩ := quoted_of_semicolon h hn
  rw [← hlies.unique hquoted] at hp
  cases hp

/-- A quoted character other than the quotes is one of the text between them -/
theorem text_of_quoted {template : String} {n : Nat} {c : Char}
    (hn : template.toList[n]? = some c) (hc : c ≠ quote) (h : Quoted template.toList n) :
    ∃ content closed i, Lies (pieces template.toList) n (.quoted content closed) (i + 1) ∧
      content[i]? = some c ∧ .text (String.ofList content) ∈ parts template := by
  obtain ⟨p, i, hlies, hp⟩ := h
  rw [← flatMap_raw_pieces template.toList, hlies.getElem?_eq] at hn
  cases p with
  | separator cs => cases hp
  | name cs => cases hp
  | quoted content closed =>
    have hpart : .text (String.ofList content) ∈ parts template :=
      List.mem_filterMap.2 ⟨_, hlies.mem, rfl⟩
    obtain ⟨j, rfl, hj⟩ := getElem?_content hn hc
    exact ⟨content, closed, j, hlies, hj, hpart⟩

/-! ## Agreement -/

/-- The reader of lines and the reader of templates agree on what is quoted.  What the first leaves
of a text is the whole of it, or ends before a semicolon behind an even number of quotes; for the
second, all semicolons in what is left are quoted, and the semicolon where it ends is the first in
the whole text that is not.  So the template of a line has its semicolons in quoted texts only -/
theorem quotes_agree :
    (∀ cs : List Char,
      uncommented cs <+: cs ∧
      (uncommented cs = cs ∨ cs[(uncommented cs).length]? = some ';' ∧
        (uncommented cs).count quote % 2 = 0) ∧
      (∀ n, (uncommented cs)[n]? = some ';' → Quoted (uncommented cs) n) ∧
      ((uncommented cs).length < cs.length → ¬ Quoted cs (uncommented cs).length ∧
        ∀ n < (uncommented cs).length, cs[n]? = some ';' → Quoted cs n)) ∧
    ∀ (l : Line) (template : String), l.parse = .ok (.message template) →
      (∀ name, .register name ∈ parts template → ';' ∉ name.toList) ∧
      ∀ n, template.toList[n]? = some ';' →
        ∃ content closed i, Lies (pieces template.toList) n (.quoted content closed) (i + 1) ∧
          content[i]? = some ';' ∧ .text (String.ofList content) ∈ parts template := by
  constructor
  · intro cs
    have hstart : uncommented cs <+: cs := uncommentedFrom_prefix false cs
    have hidem : uncommented (uncommented cs) = uncommented cs := uncommentedFrom_idem false cs
    refine ⟨hstart, ?_, fun n => quoted_of_semicolon hidem, ?_⟩
    · by_cases h : uncommented cs = cs
      · exact .inl h
      · obtain ⟨⟨comment, hcs⟩, heven⟩ := uncommented_cut h
        have hsemi : (uncommented cs ++ ';' :: comment)[(uncommented cs).length]? = some ';' := by
          simp
        rw [← hcs] at hsemi
        exact .inr ⟨hsemi, heven⟩
    · intro hlt
      have hne : uncommented cs ≠ cs := fun h => Nat.lt_irrefl _ (h ▸ hlt)
      obtain ⟨⟨comment, hcs⟩, heven⟩ := uncommented_cut hne
      have hquoted := quoted_before_comment hidem heven comment
      rwa [← hcs] at hquoted
  · intro l template hparse
    have h := uncommented_of_parse hparse
    constructor
    · intro name
      exact semicolon_not_mem_of_register h
    · intro n hn
      exact text_of_quoted hn (by decide) (quoted_of_semicolon h hn)

/-- A semicolon in a text, and another one behind the template -/
theorem quotes_agree_message :
    (⟨"msg 'a;b', x ;c", 0⟩ : Line).parse = .ok (.message "'a;b', x") ∧
      ∃ content closed i, Lies (pieces "'a;b', x".toList) 2 (.quoted content closed) (i + 1) ∧
        content[i]? = some ';' ∧ .text (String.ofList content) ∈ parts "'a;b', x" := by
  have hparse : (⟨"msg 'a;b', x ;c", 0⟩ : Line).parse = .ok (.message "'a;b', x") := by
    with_unfolding_all rfl
  exact ⟨hparse, (quotes_agree.2 _ _ hparse).2 2 (by decide)⟩

end RegisterMachine.Template
