import RegisterMachine.Proofs.Token.Render

/-!
# `RegisterMachine.Proofs.Token.Tiling` — nothing of a line is lost, and nothing is found twice

The scanner answers with tokens and unknown characters and is silent about the rest.
Here the rest is put back: a line is laid with tiles, one behind the other, and the
answers are those of the tiles that have one (`exists_tiles`).

    tile        is                                         and behind it
    token       of its class                               nothing that makes it longer
    unknown     one character that starts no token         anything
    blanks      one or more blanks                         no blank
    comment     a semicolon and more                       nothing

The tiles have their places from the line alone, each being as long as its text.  So
they go on without a gap from the first byte of the line to the last, and what is true
of the places of tiles is true of the places of answers (`answers_tile`).

The line must not have a newline.  The scanner would stop a comment there, and the
newline itself would be lost behind one.
-/

namespace RegisterMachine

/-- The byte is one of those in the span -/
def Span.Holds (s : Span) (m : Nat) : Prop :=
  s.start ≤ m ∧ m < s.stop

namespace Token

open Text (byteLength)

/-! ## Tiles -/

/-- A stretch of a line -/
inductive Tile where
  | token (t : Token)
  | unknown (c : Char) (span : Span)
  | blanks (cs : List Char) (span : Span)
  | comment (cs : List Char) (span : Span)

namespace Tile

def text : Tile → List Char
  | token t => t.text.toList
  | unknown c _ => [c]
  | blanks cs _ | comment cs _ => cs

def span : Tile → Span
  | token t => t.span
  | unknown _ span | blanks _ span | comment _ span => span

/-- What the scanner answers at a tile -/
def answer? : Tile → Option (Except Diagnostic Token)
  | token t => some (.ok t)
  | unknown c span => some (.error ((Cause.unknownCharacter c).diagnostic span))
  | blanks _ _ | comment _ _ => none

/-- Whether a stretch of a line is what its tile says, given what is behind it -/
def Fits (behind : List Char) : Tile → Prop
  | token t => t.kind.Matches t.text.toList ∧ t.kind.Ends behind
  | unknown c _ =>
    startsIdentifier c = false ∧ startsInteger c behind = false ∧ isBlank c = false ∧
      c ∉ [',', ':', ';']
  | blanks cs _ => cs ≠ [] ∧ Blank cs ∧ ∀ c ∈ behind.head?, isBlank c = false
  | comment cs _ => (∃ ds, cs = ';' :: ds) ∧ behind = []

end Tile

/-- Tiles laid one behind the other on a text, from a place in the source on -/
inductive Laid : Nat → List Char → List Tile → Prop
  | nil {n : Nat} : Laid n [] []
  | cons {n : Nat} {tile : Tile} {rest : List Char} {tiles : List Tile} :
      tile.span = ⟨n, n + byteLength tile.text⟩ → tile.Fits rest →
      Laid (n + byteLength tile.text) rest tiles → Laid n (tile.text ++ rest) (tile :: tiles)

theorem Tile.Fits.text_ne_nil {tile : Tile} {behind : List Char} (h : tile.Fits behind) :
    tile.text ≠ [] := by
  cases tile with
  | token t =>
    obtain ⟨c, ds, htext, _⟩ := h.1.head
    rw [Tile.text, htext]
    exact List.cons_ne_nil _ _
  | unknown c span => exact List.cons_ne_nil _ _
  | blanks cs span => exact h.1
  | comment cs span =>
    obtain ⟨⟨ds, rfl⟩, _⟩ := h
    exact List.cons_ne_nil _ _

theorem byteLength_pos {cs : List Char} (h : cs ≠ []) : 0 < byteLength cs := by
  cases cs with
  | nil => exact absurd rfl h
  | cons c cs =>
    have hc := c.utf8Size_pos
    rw [Text.byteLength_cons]
    omega

/-! ## Laying a line -/

/-- A character behind a gap, on a line without newlines -/
theorem skip_eq_cons {cs rest : List Char} {c : Char} (hcs : '\n' ∉ cs)
    (h : skip cs = c :: rest) : Blank (gap cs) ∧ isBlank c = false ∧ c ≠ ';' := by
  have hsplit := gap_append_skip cs
  have hc : c ≠ '\n' := by
    rintro rfl
    rw [h] at hsplit
    exact hcs (hsplit ▸ List.mem_append_right _ List.mem_cons_self)
  refine ⟨blank_gap h hc, ?_⟩
  rw [skip] at h
  split at h
  · rename_i comment hcomment
    -- a comment goes on to the end, and nothing is behind it
    have hmem : '\n' ∉ comment := fun hmem =>
      hcs ((List.dropWhile_sublist isBlank).subset (hcomment ▸ List.mem_cons_of_mem _ hmem))
    rw [dropWhile_of_no_newline hmem] at h
    cases h
  · rename_i hno
    refine ⟨stop_dropWhile c (by rw [h]; rfl), ?_⟩
    rintro rfl
    exact hno rest h

/-- A lexeme without a class is one character, which starts no token -/
theorem munch_of_none {c : Char} {cs : List Char} (h : (munch c cs).kind? = none) :
    munch c cs = ⟨none, [c], cs⟩ ∧ startsIdentifier c = false ∧ startsInteger c cs = false ∧
      c ≠ ',' ∧ c ≠ ':' := by
  rw [munch] at h ⊢
  by_cases hident : startsIdentifier c = true
  · rw [if_pos hident] at h
    cases h
  by_cases hint : startsInteger c cs = true
  · rw [if_neg hident, if_pos hint] at h
    cases h
  by_cases hcomma : c = ','
  · rw [if_neg hident, if_neg hint, if_pos hcomma] at h
    cases h
  by_cases hcolon : c = ':'
  · rw [if_neg hident, if_neg hint, if_neg hcomma, if_pos hcolon] at h
    cases h
  rw [if_neg hident, if_neg hint, if_neg hcomma, if_neg hcolon]
  exact ⟨rfl, Bool.eq_false_iff.2 hident, Bool.eq_false_iff.2 hint, hcomma, hcolon⟩

/-- Blanks in front of a text are a tile, or nothing -/
theorem Laid.blanks {n : Nat} {blanks rest : List Char} {tiles : List Tile} (hb : Blank blanks)
    (hstop : ∀ c ∈ rest.head?, isBlank c = false)
    (h : Laid (n + byteLength blanks) rest tiles) :
    ∃ tiles', Laid n (blanks ++ rest) tiles' ∧
      tiles'.filterMap Tile.answer? = tiles.filterMap Tile.answer? := by
  by_cases hnil : blanks = []
  · subst hnil
    exact ⟨tiles, h, rfl⟩
  · have hfits : (Tile.blanks blanks ⟨n, n + byteLength blanks⟩).Fits rest := ⟨hnil, hb, hstop⟩
    exact ⟨_, .cons rfl hfits h, rfl⟩

/-- A comment is the last tile -/
theorem laid_comment (n : Nat) (ds : List Char) :
    Laid n (';' :: ds) [.comment (';' :: ds) ⟨n, n + byteLength (';' :: ds)⟩] := by
  have hfits : (Tile.comment (';' :: ds) ⟨n, n + byteLength (';' :: ds)⟩).Fits [] :=
    ⟨⟨ds, rfl⟩, rfl⟩
  have h := Laid.cons rfl hfits .nil
  rwa [List.append_nil] at h

/-- A tile with the text of a lexeme is laid where the lexeme is -/
theorem Laid.lexeme {n : Nat} {c : Char} {cs : List Char} {tile : Tile} {tiles : List Tile}
    (htext : tile.text = (munch c cs).text)
    (hspan : tile.span = ⟨n, n + byteLength (munch c cs).text⟩)
    (hfits : tile.Fits (munch c cs).rest)
    (h : Laid (n + byteLength (munch c cs).text) (munch c cs).rest tiles) :
    Laid n (c :: cs) (tile :: tiles) := by
  rw [← htext] at hspan h
  have h := Laid.cons hspan hfits h
  rwa [htext, munch_append] at h

/-- The lexeme behind a gap is a tile, and the answer is that of the tile -/
theorem laid_of_next {k k' : Cursor} {a : Except Diagnostic Token} (hk : '\n' ∉ k.rest)
    (h : k.next = (some a, k')) {tiles : List Tile} (hlaid : Laid k'.offset k'.rest tiles) :
    ∃ tiles', Laid k.offset k.rest tiles' ∧
      tiles'.filterMap Tile.answer? = a :: tiles.filterMap Tile.answer? := by
  rw [Cursor.next] at h
  split at h
  · cases h
  · rename_i c cs hskip
    obtain ⟨hblank, hc, hsemi⟩ := skip_eq_cons hk hskip
    have hstop : ∀ d ∈ (c :: cs).head?, isBlank d = false := by
      rintro d ⟨⟩
      exact hc
    have hlexeme : ∃ tile : Tile, Laid (k.offset + byteLength (gap k.rest)) (c :: cs)
        (tile :: tiles) ∧ tile.answer? = some a := by
      cases hkind : (munch c cs).kind? with
      | some kind =>
        simp only [hkind] at h
        cases h
        have hfits : kind.Matches (String.ofList (munch c cs).text).toList ∧
            kind.Ends (munch c cs).rest := by
          rw [String.toList_ofList]
          exact matches_munch hkind
        exact ⟨.token ⟨kind, _, _⟩, .lexeme String.toList_ofList rfl hfits hlaid, rfl⟩
      | none =>
        simp only [hkind] at h
        cases h
        obtain ⟨heq, hident, hint, hcomma, hcolon⟩ := munch_of_none hkind
        have hfits : ∀ s, (Tile.unknown c s).Fits (munch c cs).rest := by
          intro s
          rw [heq]
          exact ⟨hident, hint, hc, by simp [hcomma, hcolon, hsemi]⟩
        exact ⟨.unknown c _, .lexeme (by rw [heq]; rfl) rfl (hfits _) hlaid, rfl⟩
    obtain ⟨tile, hlexeme, hanswer⟩ := hlexeme
    obtain ⟨tiles', hlaid', hanswers⟩ := hlexeme.blanks hblank hstop
    rw [← hskip] at hlaid'
    change Laid k.offset (gap k.rest ++ skip k.rest) tiles' at hlaid'
    rw [gap_append_skip] at hlaid'
    exact ⟨tiles', hlaid', by rw [hanswers, List.filterMap_cons_some hanswer]⟩

theorem suffix_of_next {k k' : Cursor} {a : Except Diagnostic Token}
    (h : k.next = (some a, k')) : k'.rest <:+ k.rest := by
  rw [Cursor.next] at h
  split at h
  · cases h
  · rename_i c cs hskip
    cases h
    have hsplit := gap_append_skip k.rest
    change skip k.rest = c :: cs at hskip
    rw [hskip, ← munch_append c cs, ← List.append_assoc] at hsplit
    exact ⟨_, hsplit⟩

/-- What is left of a line can be laid with tiles, and the answers are theirs -/
theorem exists_tiles {k : Cursor} (hk : '\n' ∉ k.rest) :
    ∃ tiles, Laid k.offset k.rest tiles ∧ k.answers = tiles.filterMap Tile.answer? := by
  -- on what is left to scan: an answer leaves less of it
  induction hn : k.rest.length using Nat.strongRecOn generalizing k with
  | _ n ih =>
    subst hn
    match hnext : k.next with
    | (none, k') =>
      obtain ⟨blanks, comment, hrest, hb, hcomment⟩ := Cursor.comment_of_next hnext
      rw [Cursor.answers_of_none hnext, hrest]
      rcases hcomment with rfl | ⟨ds, rfl, _⟩
      · obtain ⟨tiles, hlaid, hanswers⟩ := Laid.nil.blanks hb (n := k.offset) (by simp)
        exact ⟨tiles, hlaid, hanswers.symm⟩
      · obtain ⟨tiles, hlaid, hanswers⟩ := (laid_comment _ ds).blanks hb (by simp [isBlank])
        exact ⟨tiles, hlaid, hanswers.symm⟩
    | (some a, k') =>
      have hk' : '\n' ∉ k'.rest := fun hmem => hk ((suffix_of_next hnext).subset hmem)
      obtain ⟨tiles, hlaid, hanswers⟩ := ih _ (Cursor.next_shorter hnext) hk' rfl
      obtain ⟨tiles', hlaid', hanswers'⟩ := laid_of_next hk hnext hlaid
      exact ⟨tiles', hlaid', by rw [Cursor.answers_of_some hnext, hanswers, hanswers']⟩

/-! ## Places of tiles -/

/-- Each tile has its place in the text, and fits what is behind it there -/
theorem Laid.place {n : Nat} {line : List Char} {tiles : List Tile} (h : Laid n line tiles)
    {tile : Tile} (htile : tile ∈ tiles) :
    ∃ before behind, line = before ++ (tile.text ++ behind) ∧ tile.Fits behind ∧
      tile.span = ⟨n + byteLength before, n + byteLength before + byteLength tile.text⟩ := by
  induction h with
  | nil => cases htile
  | @cons n first rest tiles hspan hfits _ ih =>
    rcases List.mem_cons.1 htile with rfl | htile
    · exact ⟨[], rest, rfl, hfits, hspan⟩
    · obtain ⟨before, behind, hrest, hfits, hspan⟩ := ih htile
      refine ⟨first.text ++ before, behind, ?_, hfits, ?_⟩
      · rw [hrest, List.append_assoc]
      · rw [hspan, Text.byteLength_append, Nat.add_assoc n]

/-- No tile is empty, and none goes beyond the text -/
theorem Laid.inside {n : Nat} {line : List Char} {tiles : List Tile} (h : Laid n line tiles)
    {tile : Tile} (htile : tile ∈ tiles) :
    n ≤ tile.span.start ∧ tile.span.start < tile.span.stop ∧
      tile.span.stop ≤ n + byteLength line := by
  obtain ⟨before, behind, hline, hfits, hspan⟩ := h.place htile
  have hpos := byteLength_pos hfits.text_ne_nil
  rw [hspan, hline, Text.byteLength_append, Text.byteLength_append]
  refine ⟨?_, ?_, ?_⟩ <;> dsimp only <;> omega

/-- No tile starts before the one in front of it has ended -/
theorem Laid.pairwise {n : Nat} {line : List Char} {tiles : List Tile} (h : Laid n line tiles) :
    tiles.Pairwise fun a b => a.span.stop ≤ b.span.start := by
  induction h with
  | nil => exact .nil
  | cons hspan _ hrest ih =>
    refine .cons ?_ ih
    intro b hb
    rw [hspan]
    exact (hrest.inside hb).1

/-- Each byte of the text is in one tile, and in no other -/
theorem Laid.existsUnique {n : Nat} {line : List Char} {tiles : List Tile}
    (h : Laid n line tiles) {m : Nat} (hm : n ≤ m) (hm' : m < n + byteLength line) :
    ∃! i : Nat, ∃ tile, tiles[i]? = some tile ∧ tile.span.Holds m := by
  induction h with
  | nil => exact absurd hm' (Nat.not_lt.2 hm)
  | @cons n tile rest tiles hspan hfits hrest ih =>
    rw [Text.byteLength_append, ← Nat.add_assoc] at hm'
    rcases Nat.lt_or_ge m (n + byteLength tile.text) with hlt | hge
    · refine ⟨0, ⟨tile, rfl, by rw [hspan]; exact ⟨hm, hlt⟩⟩, ?_⟩
      rintro i ⟨other, hother, hholds⟩
      cases i with
      | zero => rfl
      | succ i =>
        have hstart := (hrest.inside (List.mem_of_getElem? hother)).1
        exact absurd hlt (Nat.not_lt.2 (Nat.le_trans hstart hholds.1))
    · obtain ⟨i, hi, hunique⟩ := ih hge hm'
      refine ⟨i + 1, hi, ?_⟩
      rintro j ⟨other, hother, hholds⟩
      cases j with
      | zero =>
        cases hother
        rw [hspan] at hholds
        exact absurd hholds.2 (Nat.not_lt.2 hge)
      | succ j => rw [hunique j ⟨other, hother, hholds⟩]

/-! ## The comment -/

/-- Only a comment has a semicolon in it -/
theorem Tile.Fits.no_semicolon {tile : Tile} {behind : List Char} (h : tile.Fits behind)
    (hcomment : ∀ cs s, tile ≠ .comment cs s) : ∀ c ∈ tile.text, (c != ';') = true := by
  intro c hc
  rw [bne_iff_ne]
  rintro rfl
  cases tile with
  | token t => exact h.1.not_separator _ hc (by decide)
  | unknown c span =>
    cases List.mem_singleton.1 hc
    exact h.2.2.2 (by decide)
  | blanks cs span => exact absurd (h.2.1 _ hc) (by decide)
  | comment cs span => exact hcomment cs span rfl

theorem Laid.eq_nil {n : Nat} {tiles : List Tile} (h : Laid n [] tiles) : tiles = [] := by
  refine List.eq_nil_iff_forall_not_mem.2 ?_
  intro tile htile
  obtain ⟨before, behind, hline, hfits, _⟩ := h.place htile
  have hnil := List.append_eq_nil_iff.1 (List.append_eq_nil_iff.1 hline.symm).2
  exact hfits.text_ne_nil hnil.1

/-- A comment begins at the first semicolon and goes on to the end -/
theorem Laid.mem_comment_iff {n : Nat} {line : List Char} {tiles : List Tile}
    (h : Laid n line tiles) {cs : List Char} {s : Span} :
    .comment cs s ∈ tiles ↔ cs ≠ [] ∧ cs = line.dropWhile (· != ';') ∧
      s = ⟨n + byteLength (line.takeWhile (· != ';')), n + byteLength line⟩ := by
  induction h with
  | nil =>
    constructor
    · intro hmem
      cases hmem
    · rintro ⟨hne, hcs, _⟩
      exact absurd hcs hne
  | @cons n tile rest tiles hspan hfits hrest ih =>
    by_cases hcomment : ∃ cs' s', tile = .comment cs' s'
    · obtain ⟨cs', s', rfl⟩ := hcomment
      obtain ⟨⟨ds, rfl⟩, rfl⟩ := hfits
      cases hrest.eq_nil
      have hplace : s' = ⟨n, n + byteLength (';' :: ds)⟩ := hspan
      subst hplace
      constructor
      · intro hmem
        cases List.mem_singleton.1 hmem
        exact ⟨List.cons_ne_nil _ _, by simp [Tile.text], by simp [Tile.text]⟩
      · rintro ⟨_, rfl, rfl⟩
        simp [Tile.text]
    · have hno := hfits.no_semicolon fun cs' s' heq => hcomment ⟨cs', s', heq⟩
      have hmem : .comment cs s ∈ tile :: tiles ↔ .comment cs s ∈ tiles := by
        rw [List.mem_cons]
        exact or_iff_right fun heq => hcomment ⟨cs, s, heq.symm⟩
      rw [hmem, ih, List.dropWhile_append_of_pos hno, List.takeWhile_append_of_pos hno,
        Text.byteLength_append, Text.byteLength_append, Nat.add_assoc, Nat.add_assoc]

/-! ## Answers -/

theorem Tile.eq_token {tile : Tile} {t : Token} (h : tile.answer? = some (.ok t)) :
    tile = .token t := by
  cases tile with
  | token u => cases h; rfl
  | unknown c span => cases h
  | blanks cs span => cases h
  | comment cs span => cases h

theorem Tile.eq_unknown {tile : Tile} {d : Diagnostic} (h : tile.answer? = some (.error d)) :
    ∃ c span, tile = .unknown c span ∧ d = (Cause.unknownCharacter c).diagnostic span := by
  cases tile with
  | token u => cases h
  | unknown c span => cases h; exact ⟨c, span, rfl, rfl⟩
  | blanks cs span => cases h
  | comment cs span => cases h

/-- The span that an answer is about -/
def answerSpan : Except Diagnostic Token → Option Span
  | .ok t => some t.span
  | .error d => d.span

theorem Tile.answerSpan_eq {tile : Tile} {a : Except Diagnostic Token}
    (h : tile.answer? = some a) : answerSpan a = some tile.span := by
  cases a with
  | ok t =>
    cases Tile.eq_token h
    rfl
  | error d =>
    obtain ⟨c, span, rfl, rfl⟩ := Tile.eq_unknown h
    rfl

/-- All that the scanner finds on a line, going on behind errors.  The line can be laid with tiles,
so that each byte is in one of them and in no other, the comment if there is one goes from the first
semicolon to the end, and the answers are those of tokens and unknown characters.  These have spans
inside the line, each ending before the next begins; the span of a token has the text of the token,
which is of its class and could not be longer; that of an error has one character -/
theorem answers_tile {line : String} (offset : Nat) (hline : '\n' ∉ line.toList) :
    (∃ tiles : List Tile,
      Laid offset line.toList tiles ∧
      (Cursor.start line offset).answers = tiles.filterMap Tile.answer? ∧
      (∀ m, offset ≤ m → m < offset + byteLength line.toList →
        ∃! i : Nat, ∃ tile, tiles[i]? = some tile ∧ tile.span.Holds m) ∧
      ∀ cs s, .comment cs s ∈ tiles ↔ cs ≠ [] ∧ cs = line.toList.dropWhile (· != ';') ∧
        s = ⟨offset + byteLength (line.toList.takeWhile (· != ';')),
          offset + byteLength line.toList⟩) ∧
    (Cursor.start line offset).answers.Pairwise (fun a b =>
      ∀ s ∈ answerSpan a, ∀ t ∈ answerSpan b, s.stop ≤ t.start) ∧
    (∀ a ∈ (Cursor.start line offset).answers, ∃ s, answerSpan a = some s ∧
      offset ≤ s.start ∧ s.start < s.stop ∧ s.stop ≤ offset + byteLength line.toList) ∧
    (∀ t, .ok t ∈ (Cursor.start line offset).answers →
      ∃ before behind, line.toList = before ++ (t.text.toList ++ behind) ∧
        t.span = ⟨offset + byteLength before,
          offset + byteLength before + byteLength t.text.toList⟩ ∧
        t.kind.Matches t.text.toList ∧ t.kind.Ends behind) ∧
    ∀ d, .error d ∈ (Cursor.start line offset).answers →
      ∃ before c behind, line.toList = before ++ c :: behind ∧
        d = (Cause.unknownCharacter c).diagnostic
          (some ⟨offset + byteLength before, offset + byteLength before + c.utf8Size⟩) := by
  have hstart : '\n' ∉ (Cursor.start line offset).rest := hline
  obtain ⟨tiles, hlaid, hanswers⟩ := exists_tiles hstart
  have htile : ∀ {a}, a ∈ (Cursor.start line offset).answers →
      ∃ tile ∈ tiles, tile.answer? = some a := by
    intro a ha
    rw [hanswers] at ha
    exact List.mem_filterMap.1 ha
  refine ⟨⟨tiles, hlaid, hanswers, ?_, ?_⟩, ?_, ?_, ?_, ?_⟩
  · intro m hm hm'
    exact hlaid.existsUnique hm hm'
  · intro cs s
    exact hlaid.mem_comment_iff
  · rw [hanswers, List.pairwise_filterMap]
    refine hlaid.pairwise.imp ?_
    intro tile tile' hle a ha a' ha' s hs t ht
    rw [Tile.answerSpan_eq ha] at hs
    rw [Tile.answerSpan_eq ha'] at ht
    cases hs
    cases ht
    exact hle
  · intro a ha
    obtain ⟨tile, hmem, ha⟩ := htile ha
    exact ⟨tile.span, Tile.answerSpan_eq ha, hlaid.inside hmem⟩
  · intro t ht
    obtain ⟨tile, hmem, ha⟩ := htile ht
    cases Tile.eq_token ha
    obtain ⟨before, behind, hsplit, hfits, hspan⟩ := hlaid.place hmem
    exact ⟨before, behind, hsplit, hspan, hfits⟩
  · intro d hd
    obtain ⟨tile, hmem, ha⟩ := htile hd
    obtain ⟨c, span, rfl, rfl⟩ := Tile.eq_unknown ha
    obtain ⟨before, behind, hsplit, _, hspan⟩ := hlaid.place hmem
    exact ⟨before, c, behind, hsplit,
      congrArg (fun s => (Cause.unknownCharacter c).diagnostic (some s)) hspan⟩

/-- A character of two bytes that starts no token, and a comment at the end -/
theorem answers_tile_accent :
    '\n' ∉ "é a-1 ;c".toList ∧ ∃ tiles, Laid 3 "é a-1 ;c".toList tiles ∧
      (Cursor.start "é a-1 ;c" 3).answers = tiles.filterMap Tile.answer? ∧
      .comment [';', 'c'] ⟨10, 12⟩ ∈ tiles := by
  have hline : '\n' ∉ "é a-1 ;c".toList := by decide
  obtain ⟨⟨tiles, hlaid, hanswers, _, hcomment⟩, _⟩ := answers_tile 3 hline
  exact ⟨hline, tiles, hlaid, hanswers, (hcomment _ _).2 ⟨by decide, by decide, by decide⟩⟩

end Token

end RegisterMachine
