import RegisterMachine.Proofs.Token.Tiling

/-!
# `RegisterMachine.Proofs.Token.Language` — the lines that are made of tokens

Whether a line can be scanned is seen from its characters, without a thought of tokens.
Only those in front of the comment count (`body`), and each is judged by itself and the
one behind it (`Admits`):

    character                                     may stand
    space, tab, carriage return, comma, colon     anywhere
    underscore, letter, digit                     anywhere
    minus sign                                    before a digit
    any other                                     nowhere

The minus sign is the only one that looks ahead, and it looks at a character of its own
token.  So the characters of a token may stand where they stand whatever is behind the
token (`Kind.Matches.clean`), and it does not matter how tokens meet.  A character that
is no part of a token or a gap is one that may not stand there (`Tile.Fits.not_admits`).
Laying the line with tiles then judges it from the front to the back (`Laid.judged`).
-/

namespace RegisterMachine.Token

open Text (byteLength)

/-! ## Characters that may stand where they stand -/

/-- The text in front of the comment -/
def body (cs : List Char) : List Char :=
  cs.takeWhile (· != ';')

/-- The character may stand before the text -/
def Admits (c : Char) (behind : List Char) : Prop :=
  c ∈ [' ', '\t', '\r', ',', ':', '_'] ∨ c.isAlphanum = true ∨
    (c = '-' ∧ behind.head?.any Char.isDigit = true)

instance (c : Char) (behind : List Char) : Decidable (Admits c behind) :=
  inferInstanceAs (Decidable (_ ∨ _ ∨ _))

/-- All characters of a text may stand where they stand, with another text behind it -/
def Clean (cs behind : List Char) : Prop :=
  ∀ before c rest, cs = before ++ c :: rest → Admits c (rest ++ behind)

/-- The first character of a text that may not stand where it stands, and what is before it and
behind it -/
structure Spoils (cs before : List Char) (c : Char) (behind : List Char) : Prop where
  split : cs = before ++ c :: behind
  not_admits : ¬ Admits c behind
  clean : Clean before (c :: behind)

theorem clean_nil (behind : List Char) : Clean [] behind := by
  intro before c rest h
  cases before <;> cases h

theorem clean_cons_iff {c : Char} {cs behind : List Char} :
    Clean (c :: cs) behind ↔ Admits c (cs ++ behind) ∧ Clean cs behind := by
  constructor
  · intro h
    refine ⟨h [] c cs rfl, ?_⟩
    intro before d rest hcs
    exact h (c :: before) d rest (congrArg (c :: ·) hcs)
  · rintro ⟨hc, hcs⟩ before d rest h
    cases before with
    | nil =>
      cases h
      exact hc
    | cons b before =>
      obtain ⟨_, h⟩ := List.cons.inj h
      exact hcs before d rest h

theorem clean_append_iff {cs ds behind : List Char} :
    Clean (cs ++ ds) behind ↔ Clean cs (ds ++ behind) ∧ Clean ds behind := by
  induction cs with
  | nil => exact (and_iff_right (clean_nil _)).symm
  | cons c cs ih =>
    rw [List.cons_append, clean_cons_iff, clean_cons_iff, ih, List.append_assoc, and_assoc]

/-- Characters that may stand anywhere may stand together -/
theorem clean_of_forall {cs : List Char} (h : ∀ c ∈ cs, ∀ rest, Admits c rest)
    (behind : List Char) : Clean cs behind := by
  rintro before c rest rfl
  exact h c (List.mem_append_right before List.mem_cons_self) _

namespace Spoils

variable {cs before before' behind behind' : List Char} {c c' : Char}

theorem not_clean (h : Spoils cs before c behind) : ¬ Clean cs [] := by
  intro hclean
  have hc := hclean before c behind h.split
  rw [List.append_nil] at hc
  exact h.not_admits hc

/-- A text in front, all of whose characters may stand there -/
theorem append (h : Spoils cs before c behind) {front : List Char} (hfront : Clean front cs) :
    Spoils (front ++ cs) (front ++ before) c behind := by
  obtain ⟨rfl, hc, hbefore⟩ := h
  exact ⟨(List.append_assoc front before _).symm, hc, clean_append_iff.2 ⟨hfront, hbefore⟩⟩

/-- No text is spoilt at two places -/
theorem unique (h : Spoils cs before c behind) (h' : Spoils cs before' c' behind') :
    before = before' ∧ c = c' ∧ behind = behind' := by
  -- one that stands in front of the other may not stand there, and may, as the other is the first
  have hfront : ∀ {before before' behind behind' : List Char} {c c' d : Char} {ds : List Char},
      Spoils cs before c behind → Spoils cs before' c' behind' → before' ≠ before ++ d :: ds := by
    rintro before _ behind behind' c c' d ds h h' rfl
    have hsplit := h.split.symm.trans h'.split
    rw [List.append_assoc, List.append_cancel_left_eq, List.cons_append] at hsplit
    obtain ⟨rfl, rfl⟩ := List.cons.inj hsplit
    exact h.not_admits (h'.clean before c ds rfl)
  rcases List.append_eq_append_iff.1 (h.split.symm.trans h'.split) with
    ⟨ds, hbefore, hrest⟩ | ⟨ds, hbefore, hrest⟩
  · cases ds with
    | nil =>
      obtain ⟨rfl, rfl⟩ := List.cons.inj hrest
      exact ⟨by simpa using hbefore.symm, rfl, rfl⟩
    | cons d ds => exact absurd hbefore (hfront h h')
  · cases ds with
    | nil =>
      obtain ⟨rfl, rfl⟩ := List.cons.inj hrest
      exact ⟨by simpa using hbefore, rfl, rfl⟩
    | cons d ds => exact absurd hbefore (hfront h' h)

end Spoils

/-! ## Characters of tiles -/

theorem admits_of_isDigit {c : Char} (h : c.isDigit = true) (behind : List Char) :
    Admits c behind :=
  .inr (.inl (by rw [Char.isAlphanum, h, Bool.or_true]))

theorem admits_of_continuesIdentifier {c : Char} (h : continuesIdentifier c = true)
    (behind : List Char) : Admits c behind := by
  rcases Bool.or_eq_true_iff.1 h with hc | hc
  · exact .inr (.inl hc)
  · rw [beq_iff_eq.1 hc]
    exact .inl (by simp)

theorem Blank.clean {cs : List Char} (h : Blank cs) (behind : List Char) : Clean cs behind := by
  refine clean_of_forall ?_ behind
  intro c hc rest
  rcases isBlank_iff.1 (h c hc) with rfl | rfl | rfl <;> exact .inl (by simp)

/-- The characters of a token may stand where they stand, whatever is behind the token -/
theorem Kind.Matches.clean {kind : Kind} {cs : List Char} (h : kind.Matches cs)
    (behind : List Char) : Clean cs behind := by
  cases kind with
  | identifier =>
    obtain ⟨c, ds, rfl, hc, hds⟩ := h
    have hstart : continuesIdentifier c = true := by
      rw [startsIdentifier] at hc
      rw [continuesIdentifier, Char.isAlphanum, Bool.or_right_comm, hc, Bool.true_or]
    refine clean_of_forall (List.forall_mem_cons.2 ⟨?_, ?_⟩) behind
    · exact admits_of_continuesIdentifier hstart
    · exact fun d hd => admits_of_continuesIdentifier (hds d hd)
  | integer =>
    obtain ⟨c, ds, rfl, hc, hds⟩ := h
    refine clean_cons_iff.2 ⟨?_, clean_of_forall (fun d hd => admits_of_isDigit (hds d hd)) behind⟩
    rcases Bool.or_eq_true_iff.1 hc with hc | hc
    · exact admits_of_isDigit hc _
    · obtain ⟨hminus, hdigit⟩ := Bool.and_eq_true_iff.1 hc
      -- the digit that the sign needs is the next one of the token
      cases ds with
      | nil => cases hdigit
      | cons d ds => exact .inr (.inr ⟨beq_iff_eq.1 hminus, hdigit⟩)
  | comma =>
    cases h
    exact clean_cons_iff.2 ⟨.inl (by simp), clean_nil behind⟩
  | colon =>
    cases h
    exact clean_cons_iff.2 ⟨.inl (by simp), clean_nil behind⟩

/-- An unknown character may not stand where it stands -/
theorem Tile.Fits.not_admits {c : Char} {s : Span} {behind : List Char}
    (h : (Tile.unknown c s).Fits behind) : ¬ Admits c (body behind) := by
  obtain ⟨hident, hint, hblank, hmark⟩ := h
  obtain ⟨halpha, hunder⟩ := Bool.or_eq_false_iff.1 hident
  obtain ⟨hdigit, hminus⟩ := Bool.or_eq_false_iff.1 hint
  rintro (hc | hc | ⟨rfl, hc⟩)
  · simp only [List.mem_cons, List.not_mem_nil, or_false] at hc hmark
    rcases hc with rfl | rfl | rfl | rfl | rfl | rfl
    · exact absurd hblank (by decide)
    · exact absurd hblank (by decide)
    · exact absurd hblank (by decide)
    · exact hmark (.inl rfl)
    · exact hmark (.inr (.inl rfl))
    · exact absurd hunder (by decide)
  · rw [Char.isAlphanum, halpha, hdigit] at hc
    cases hc
  · cases behind with
    | nil => cases hc
    | cons d ds =>
      rw [body, List.takeWhile_cons] at hc
      split at hc
      · have hd : d.isDigit = false := hminus
        have hd' : d.isDigit = true := hc
        rw [hd] at hd'
        cases hd'
      · cases hc

/-! ## Judging a line -/

/-- What the answers say of a text from a place in the source on: tokens only, where it is clean,
and else tokens and then the complaint about what spoils it -/
inductive Judged (n : Nat) (cs : List Char) : List (Except Diagnostic Token) → Prop
  | clean {ts : List Token} : Clean cs [] → Judged n cs (ts.map .ok)
  | spoilt {before behind : List Char} {c : Char} {ts : List Token}
      {answers : List (Except Diagnostic Token)} :
      Spoils cs before c behind →
      Judged n cs (ts.map .ok ++ .error ((Cause.unknownCharacter c).diagnostic
        (some ⟨n + byteLength before, n + byteLength before + c.utf8Size⟩)) :: answers)

/-- A clean text in front adds tokens in front -/
theorem Judged.append {n : Nat} {front cs : List Char} {answers : List (Except Diagnostic Token)}
    (h : Judged (n + byteLength front) cs answers) (hfront : ∀ behind, Clean front behind)
    (us : List Token) : Judged n (front ++ cs) (us.map .ok ++ answers) := by
  cases h with
  | @clean ts hcs =>
    rw [← List.map_append]
    exact .clean (clean_append_iff.2 ⟨hfront _, hcs⟩)
  | @spoilt before behind c ts answers hcs =>
    rw [← List.append_assoc, ← List.map_append, Nat.add_assoc n, ← Text.byteLength_append]
    exact .spoilt (hcs.append (hfront cs))

theorem body_append {cs : List Char} (hcs : ∀ c ∈ cs, (c != ';') = true) (ds : List Char) :
    body (cs ++ ds) = cs ++ body ds :=
  List.takeWhile_append_of_pos hcs

/-- The answers of the tiles judge the text that these are laid on -/
theorem Laid.judged {n : Nat} {line : List Char} {tiles : List Tile} (h : Laid n line tiles) :
    Judged n (body line) (tiles.filterMap Tile.answer?) := by
  induction h with
  | @nil n => exact @Judged.clean n [] [] (clean_nil [])
  | @cons n tile rest tiles hspan hfits hrest ih =>
    cases tile with
    | token t =>
      rw [body_append (hfits.no_semicolon nofun)]
      exact ih.append hfits.1.clean [t]
    | blanks cs s =>
      rw [body_append (hfits.no_semicolon nofun)]
      exact ih.append hfits.2.1.clean []
    | unknown c s =>
      rw [body_append (hfits.no_semicolon nofun)]
      have hspoils : Spoils (c :: body rest) [] c (body rest) :=
        ⟨rfl, hfits.not_admits, clean_nil _⟩
      obtain rfl : s = ⟨n, n + c.utf8Size⟩ := hspan
      exact @Judged.spoilt n _ [] _ c [] _ hspoils
    | comment cs s =>
      obtain ⟨⟨ds, rfl⟩, rfl⟩ := hfits
      cases hrest.eq_nil
      exact @Judged.clean n [] [] (clean_nil [])

/-- The characters of a line decide what is found on it.  It is made of tokens exactly if each
character in front of the comment may stand where it stands; and else the complaint is about the
first that may not, at its place in the source, whatever is behind it -/
theorem lex_exact {line : String} (offset : Nat) (hline : '\n' ∉ line.toList) :
    ((∃ ts, lex line offset = .ok ts) ↔ Clean (body line.toList) []) ∧
    ∀ d, lex line offset = .error d ↔
      ∃ before c behind, Spoils (body line.toList) before c behind ∧
        d.kind = .parse ∧ d.message = (Cause.unknownCharacter c).message ∧
        d.span = some ⟨offset + byteLength before, offset + byteLength before + c.utf8Size⟩ := by
  obtain ⟨tiles, hlaid, hanswers⟩ := exists_tiles (k := .start line offset) hline
  have hjudged : Judged offset (body line.toList) (Cursor.start line offset).answers :=
    hanswers ▸ hlaid.judged
  have hlex : lex line offset = (Cursor.start line offset).answers.mapM id := rfl
  generalize (Cursor.start line offset).answers = answers at hjudged hlex
  cases hjudged with
  | @clean ts hclean =>
    rw [hlex, Except.mapM_id_eq_ok_iff.2 rfl]
    refine ⟨iff_of_true ⟨ts, rfl⟩ hclean, ?_⟩
    intro d
    refine iff_of_false nofun ?_
    rintro ⟨before, c, behind, hspoils, _⟩
    exact hspoils.not_clean hclean
  | @spoilt before behind c ts answers hspoils =>
    rw [hlex, Except.mapM_id_eq_error_iff.2 ⟨ts, answers, rfl⟩]
    refine ⟨iff_of_false nofun hspoils.not_clean, ?_⟩
    intro d
    constructor
    · intro h
      cases h
      exact ⟨before, c, behind, hspoils, rfl, rfl, rfl⟩
    · rintro ⟨before', c', behind', hspoils', hkind, hmessage, hspan⟩
      obtain ⟨rfl, rfl, rfl⟩ := hspoils.unique hspoils'
      obtain ⟨kind, message, span⟩ := d
      cases hkind
      cases hmessage
      cases hspan
      rfl

/-- A minus sign before a digit, one before a minus sign, and one that a comment cuts off from its
digit -/
theorem lex_exact_minus :
    '\n' ∉ "a-1 --;1".toList ∧
      lex "a-1 --;1" 3 = .error ⟨.parse, "Unknown character '-'", some ⟨7, 8⟩⟩ := by
  have hline : '\n' ∉ "a-1 --;1".toList := by decide
  refine ⟨hline, ((lex_exact 3 hline).2 _).2 ⟨"a-1 ".toList, '-', ['-'], ?_, rfl, rfl, rfl⟩⟩
  refine ⟨by decide, by decide, ?_⟩
  exact clean_cons_iff.2 ⟨by decide, clean_cons_iff.2 ⟨by decide, clean_cons_iff.2 ⟨by decide,
    clean_cons_iff.2 ⟨by decide, clean_nil _⟩⟩⟩⟩

end RegisterMachine.Token
