import Mathlib.Data.List.TakeWhile
import RegisterMachine.Token
import RegisterMachine.Proofs.Except

/-!
# `RegisterMachine.Proofs.Token.Render` — the texts that a list of tokens is scanned from

The scanner goes from a text to its tokens.  `Renders` goes the other way and
says which texts have given tokens: blanks, then a token, then blanks, and so on,
and a comment at the end.  Between a token and what follows there need not be a
blank, but what follows must not make the token longer (`Kind.Ends`).

    class         text (`Kind.Matches`)                           goes on with
    identifier    startsIdentifier, then continuesIdentifier *    continuesIdentifier
    integer       '-' ?, then isDigit +                           isDigit
    comma, colon  the character itself                            nothing

**Proved here.**

    a lexeme is of its class and ends where it ends       (`matches_munch`)
    what is of a class and ends there is the lexeme       (`munch_of_matches`)
    a text has these tokens iff it renders them           (`tokens_iff_renders`)
-/

namespace RegisterMachine.Token

open Text (byteLength)

/-- What the grammar sees of a token: its class and its text -/
abbrev Shape := Kind × String

def shape (t : Token) : Shape :=
  (t.kind, t.text)

/-! ## Classes -/

/-- The texts of a class -/
def Kind.Matches : Kind → List Char → Prop
  | .identifier, cs => ∃ c ds, cs = c :: ds ∧ startsIdentifier c = true
      ∧ ∀ d ∈ ds, continuesIdentifier d = true
  | .integer, cs => ∃ c ds, cs = c :: ds ∧ startsInteger c ds = true
      ∧ ∀ d ∈ ds, d.isDigit = true
  | .comma, cs => cs = [',']
  | .colon, cs => cs = [':']

/-- The characters that make a token of a class longer -/
def Kind.continues : Kind → Char → Bool
  | .identifier => continuesIdentifier
  | .integer => Char.isDigit
  | .comma | .colon => fun _ => false

/-- A token of the class ends before this text -/
def Kind.Ends (kind : Kind) (rest : List Char) : Prop :=
  ∀ c ∈ rest.head?, kind.continues c = false

/-- The characters that stand between tokens, and the newline -/
def separators : List Char := [' ', '\t', '\r', ';', '\n']

theorem isBlank_iff {c : Char} : isBlank c = true ↔ c = ' ' ∨ c = '\t' ∨ c = '\r' := by
  simp [isBlank, or_assoc]

/-- A class that has none of some characters has no character that is one of them -/
theorem not_mem_of_class {p : Char → Bool} {cs : List Char} (hp : cs.any p = false)
    {c : Char} (h : p c = true) : c ∉ cs := by
  intro hc
  rw [List.any_eq_true.2 ⟨c, hc, h⟩] at hp
  cases hp

theorem startsIdentifier_of_isDigit {c : Char} (h : c.isDigit = true) :
    startsIdentifier c = false := by
  cases hs : startsIdentifier c with
  | false => rfl
  | true =>
    have hdigit : (decide (c.val ≥ '0'.val) && decide (c.val ≤ '9'.val)) = true := h
    have hletter : (decide (c.val ≥ 'A'.val ∧ c.val ≤ 'Z'.val) ||
        (decide (c.val ≥ 'a'.val) && decide (c.val ≤ 'z'.val)) || c == '_') = true := hs
    simp only [Bool.or_eq_true, Bool.and_eq_true, decide_eq_true_eq, beq_iff_eq, ge_iff_le,
      UInt32.le_iff_toNat_le] at hdigit hletter
    have h9 : '9'.val.toNat = 57 := rfl
    have hA : 'A'.val.toNat = 65 := rfl
    have ha : 'a'.val.toNat = 97 := rfl
    rcases hletter with (hletter | hletter) | rfl
    · omega
    · omega
    · exact absurd h (by decide)

theorem Kind.ends_nil (kind : Kind) : kind.Ends [] :=
  fun _ hc => nomatch hc

/-- A comma, a colon and what stands between tokens make no token longer -/
theorem Kind.ends_cons (kind : Kind) {c : Char} (hc : c ∈ ',' :: ':' :: separators)
    (cs : List Char) : kind.Ends (c :: cs) := by
  have hnone : (',' :: ':' :: separators).any kind.continues = false := by
    cases kind <;> decide
  intro d hd
  cases hd
  cases hcontinues : kind.continues c with
  | false => rfl
  | true => exact absurd hc (not_mem_of_class hnone hcontinues)

/-- A token starts with a character that does not stand between tokens -/
theorem Kind.Matches.head {kind : Kind} {cs : List Char} (h : kind.Matches cs) :
    ∃ c ds, cs = c :: ds ∧ c ∉ separators := by
  cases kind with
  | identifier =>
    obtain ⟨c, ds, rfl, hc, _⟩ := h
    exact ⟨c, ds, rfl, not_mem_of_class (by decide) hc⟩
  | integer =>
    obtain ⟨c, ds, rfl, hc, _⟩ := h
    simp only [startsInteger, Bool.or_eq_true, Bool.and_eq_true, beq_iff_eq] at hc
    rcases hc with hc | ⟨rfl, _⟩
    · exact ⟨c, ds, rfl, not_mem_of_class (by decide) hc⟩
    · exact ⟨'-', ds, rfl, by decide⟩
  | comma => exact ⟨',', [], h, by decide⟩
  | colon => exact ⟨':', [], h, by decide⟩

/-! ## Lexemes -/

theorem takeWhile_append_of_stop {p : Char → Bool} {ds rest : List Char}
    (hd : ∀ d ∈ ds, p d = true) (hr : ∀ c ∈ rest.head?, p c = false) :
    (ds ++ rest).takeWhile p = ds ∧ (ds ++ rest).dropWhile p = rest := by
  rw [List.takeWhile_append_of_pos hd, List.dropWhile_append_of_pos hd]
  cases rest with
  | nil => exact ⟨List.append_nil ds, rfl⟩
  | cons c rest =>
    have hc : p c = false := hr c rfl
    simp [hc]

theorem stop_dropWhile {p : Char → Bool} {cs : List Char} :
    ∀ c ∈ (cs.dropWhile p).head?, p c = false := by
  intro c hc
  have := List.head?_dropWhile_not p cs
  rw [Option.mem_def.1 hc] at this
  exact this

theorem startsInteger_takeWhile {c : Char} {cs : List Char} (h : startsInteger c cs = true) :
    startsInteger c (cs.takeWhile Char.isDigit) = true := by
  cases cs with
  | nil => exact h
  | cons d ds =>
    cases hd : d.isDigit with
    | true => simpa [startsInteger, hd] using h
    | false => simpa [startsInteger, hd] using h

/-- The lexeme of a class is of the class, and could not be longer -/
theorem matches_munch {c : Char} {cs : List Char} {kind : Kind}
    (h : (munch c cs).kind? = some kind) :
    kind.Matches (munch c cs).text ∧ kind.Ends (munch c cs).rest := by
  rw [munch] at h ⊢
  by_cases hc : startsIdentifier c = true
  · rw [if_pos hc] at h ⊢
    cases h
    exact ⟨⟨c, _, rfl, hc, fun _ => List.mem_takeWhile_imp⟩, stop_dropWhile⟩
  rw [if_neg hc] at h ⊢
  by_cases hi : startsInteger c cs = true
  · rw [if_pos hi] at h ⊢
    cases h
    exact ⟨⟨c, _, rfl, startsInteger_takeWhile hi, fun _ => List.mem_takeWhile_imp⟩, stop_dropWhile⟩
  rw [if_neg hi] at h ⊢
  by_cases hcomma : c = ','
  · rw [if_pos hcomma] at h ⊢
    cases h
    exact ⟨congrArg (fun c => [c]) hcomma, fun _ _ => rfl⟩
  rw [if_neg hcomma] at h ⊢
  by_cases hcolon : c = ':'
  · rw [if_pos hcolon] at h ⊢
    cases h
    exact ⟨congrArg (fun c => [c]) hcolon, fun _ _ => rfl⟩
  · rw [if_neg hcolon] at h
    cases h

/-- A text of a class, followed by one that does not make it longer, is the lexeme -/
theorem munch_of_matches {kind : Kind} {c : Char} {ds rest : List Char}
    (h : kind.Matches (c :: ds)) (hr : kind.Ends rest) :
    munch c (ds ++ rest) = ⟨some kind, c :: ds, rest⟩ := by
  cases kind with
  | identifier =>
    obtain ⟨_, _, heq, hc, hds⟩ := h
    cases heq
    obtain ⟨htake, hdrop⟩ := takeWhile_append_of_stop hds hr
    rw [munch, if_pos hc, htake, hdrop]
  | integer =>
    obtain ⟨_, _, heq, hc, hds⟩ := h
    cases heq
    obtain ⟨htake, hdrop⟩ := takeWhile_append_of_stop hds hr
    have hstart : startsIdentifier c = false := by
      simp only [startsInteger, Bool.or_eq_true, Bool.and_eq_true, beq_iff_eq] at hc
      rcases hc with hc | ⟨rfl, _⟩
      · exact startsIdentifier_of_isDigit hc
      · decide
    have hint : startsInteger c (ds ++ rest) = true := by
      cases ds with
      | nil =>
        have hd : c.isDigit = true := by simpa [startsInteger] using hc
        simp [startsInteger, hd]
      | cons d ds => exact hc
    rw [munch, if_neg (by simp [hstart]), if_pos hint, htake, hdrop]
  | comma => cases h; rfl
  | colon => cases h; rfl

/-! ## Gaps -/

def Blank (cs : List Char) : Prop :=
  ∀ c ∈ cs, isBlank c = true

theorem Blank.nil : Blank [] :=
  fun _ hc => nomatch hc

/-- A comment up to the end of the line, or nothing -/
def Comment (cs : List Char) : Prop :=
  cs = [] ∨ ∃ ds, cs = ';' :: ds ∧ '\n' ∉ ds

/-- A token ends before blanks; where there are none it is for the rest to end it -/
theorem Kind.ends_of_blank {kind : Kind} {blanks rest : List Char} (hb : Blank blanks)
    (h : blanks = [] → kind.Ends rest) : kind.Ends (blanks ++ rest) := by
  cases blanks with
  | nil => exact h rfl
  | cons b blanks =>
    refine kind.ends_cons ?_ (blanks ++ rest)
    rcases isBlank_iff.1 (hb b List.mem_cons_self) with rfl | rfl | rfl <;> decide

theorem Comment.ends {comment : List Char} (h : Comment comment) (kind : Kind) :
    kind.Ends comment := by
  rcases h with rfl | ⟨ds, rfl, _⟩
  · exact kind.ends_nil
  · exact kind.ends_cons (by decide) ds

theorem skip_of_blank {blanks rest : List Char} (hb : Blank blanks)
    (hr : ∀ c ∈ rest.head?, c ∉ separators) :
    gap (blanks ++ rest) = blanks ∧ skip (blanks ++ rest) = rest := by
  have hstop : ∀ c ∈ rest.head?, isBlank c = false := by
    intro c hc
    cases hblank : isBlank c with
    | false => rfl
    | true =>
      refine absurd ?_ (hr c hc)
      rcases isBlank_iff.1 hblank with rfl | rfl | rfl <;> decide
  obtain ⟨htake, hdrop⟩ := takeWhile_append_of_stop hb hstop
  unfold gap skip
  rw [htake, hdrop]
  split
  · exact absurd (by decide : ';' ∈ separators) (hr ';' rfl)
  · exact ⟨List.append_nil blanks, rfl⟩

/-- A comment goes on to the end of a text without newlines -/
theorem dropWhile_of_no_newline {ds : List Char} (h : '\n' ∉ ds) :
    ds.dropWhile (· != '\n') = [] := by
  refine List.dropWhile_eq_nil_iff.2 ?_
  intro c hc
  simpa using fun heq : c = '\n' => h (heq ▸ hc)

theorem skip_of_comment {blanks comment : List Char} (hb : Blank blanks) (hc : Comment comment) :
    skip (blanks ++ comment) = [] := by
  rcases hc with rfl | ⟨ds, rfl, hds⟩
  · exact (skip_of_blank hb (by simp)).2
  · have hstop : ∀ c ∈ (';' :: ds).head?, isBlank c = false := by simp [isBlank]
    obtain ⟨_, hdrop⟩ := takeWhile_append_of_stop hb hstop
    rw [skip, hdrop]
    exact dropWhile_of_no_newline hds

/-- Where a text has nothing but a gap -/
theorem comment_of_skip {cs : List Char} (h : skip cs = []) :
    ∃ blanks comment, cs = blanks ++ comment ∧ Blank blanks ∧ Comment comment := by
  have hsplit := List.takeWhile_append_dropWhile (p := isBlank) (l := cs)
  rw [skip] at h
  split at h
  · rename_i ds hds
    refine ⟨_, _, hsplit.symm, fun _ => List.mem_takeWhile_imp, .inr ⟨ds, hds, ?_⟩⟩
    intro hmem
    have := List.dropWhile_eq_nil_iff.1 h '\n' hmem
    exact absurd this (by decide)
  · exact ⟨_, _, hsplit.symm, fun _ => List.mem_takeWhile_imp, .inl h⟩

/-- A gap before anything but a newline is made of blanks -/
theorem blank_gap {cs rest : List Char} {c : Char} (h : skip cs = c :: rest) (hc : c ≠ '\n') :
    Blank (gap cs) := by
  rw [skip] at h
  split at h
  · have hstop := stop_dropWhile c (by rw [h]; rfl)
    exact absurd (by simpa using hstop) hc
  · rename_i hno
    rw [gap]
    split
    · rename_i ds hds
      exact absurd hds (hno ds)
    · rw [List.append_nil]
      exact fun _ => List.mem_takeWhile_imp

/-! ## Scanning -/

/-- The texts that a list of tokens is scanned from -/
inductive Renders : List Shape → List Char → Prop
  | nil {blanks comment : List Char} :
      Blank blanks → Comment comment → Renders [] (blanks ++ comment)
  | cons {kind : Kind} {text : String} {ws : List Shape} {blanks rest : List Char} :
      Blank blanks → kind.Matches text.toList → kind.Ends rest → Renders ws rest →
      Renders ((kind, text) :: ws) (blanks ++ (text.toList ++ rest))

theorem Renders.matches {ws : List Shape} {cs : List Char} (h : Renders ws cs) :
    ∀ w ∈ ws, w.1.Matches w.2.toList := by
  induction h with
  | nil => simp
  | cons _ hm _ _ ih =>
    intro w hw
    rcases List.mem_cons.1 hw with rfl | hw
    · exact hm
    · exact ih w hw

/-- No token has a character in it that stands between tokens -/
theorem Kind.Matches.not_separator {kind : Kind} {cs : List Char} (h : kind.Matches cs) :
    ∀ c ∈ cs, c ∉ separators := by
  obtain ⟨_, _, rfl, hc⟩ := h.head
  refine List.forall_mem_cons.2 ⟨hc, ?_⟩
  cases kind with
  | identifier =>
    obtain ⟨_, _, heq, _, hds⟩ := h
    cases heq
    exact fun d hd => not_mem_of_class (by decide) (hds d hd)
  | integer =>
    obtain ⟨_, _, heq, _, hds⟩ := h
    cases heq
    exact fun d hd => not_mem_of_class (by decide) (hds d hd)
  | comma | colon =>
    cases h
    exact fun _ hd => nomatch hd

theorem Kind.Matches.no_newline {kind : Kind} {cs : List Char} (h : kind.Matches cs) :
    '\n' ∉ cs :=
  fun hmem => h.not_separator _ hmem (by decide)

theorem Blank.no_newline {cs : List Char} (h : Blank cs) : '\n' ∉ cs :=
  fun hmem => absurd (h _ hmem) (by decide)

theorem Comment.no_newline {cs : List Char} (h : Comment cs) : '\n' ∉ cs := by
  rcases h with rfl | ⟨ds, rfl, hds⟩
  · exact List.not_mem_nil
  · exact List.not_mem_cons_of_ne_of_not_mem (by decide) hds

/-- A newline is neither a token nor between tokens -/
theorem Renders.no_newline {ws : List Shape} {cs : List Char} (h : Renders ws cs) :
    '\n' ∉ cs := by
  induction h with
  | nil hb hc => simp [hb.no_newline, hc.no_newline]
  | cons hb hm _ _ ih => simp [hb.no_newline, hm.no_newline, ih]

namespace Cursor

theorem answers_of_none {k k' : Cursor} (h : k.next = (none, k')) : k.answers = [] := by
  rw [answers]
  split
  · rfl
  · rename_i heq
    rw [h] at heq
    cases heq

theorem answers_of_some {k k' : Cursor} {a : Except Diagnostic Token}
    (h : k.next = (some a, k')) : k.answers = a :: k'.answers := by
  rw [answers]
  split
  · rename_i heq
    rw [h] at heq
    cases heq
  · rename_i heq
    rw [h] at heq
    cases heq
    rfl

theorem tokens_of_none {k k' : Cursor} (h : k.next = (none, k')) : k.tokens = .ok [] := by
  rw [tokens, answers_of_none h]
  rfl

theorem tokens_of_some {k k' : Cursor} {a : Except Diagnostic Token}
    (h : k.next = (some a, k')) :
    k.tokens = a >>= fun t => k'.tokens >>= fun ts => .ok (t :: ts) := by
  rw [tokens, answers_of_some h]
  exact List.mapM_cons

theorem tokens_of_ok {k k' : Cursor} {t : Token} (h : k.next = (some (.ok t), k')) :
    k.tokens = k'.tokens >>= fun ts => .ok (t :: ts) :=
  tokens_of_some h

theorem tokens_of_error {k k' : Cursor} {d : Diagnostic} (h : k.next = (some (.error d), k')) :
    k.tokens = .error d :=
  tokens_of_some h

theorem next_of_comment {k : Cursor} {blanks comment : List Char}
    (hk : k.rest = blanks ++ comment) (hb : Blank blanks) (hc : Comment comment) :
    ∃ k', k.next = (none, k') := by
  have hskip : k.skip.rest = [] := by
    rw [skip, hk]
    exact skip_of_comment hb hc
  rw [next, hskip]
  exact ⟨_, rfl⟩

/-- A text of a class is found behind blanks, at its place -/
theorem next_eq_of_matches {k : Cursor} {kind : Kind} {blanks text rest : List Char}
    (hk : k.rest = blanks ++ (text ++ rest)) (hb : Blank blanks) (hm : kind.Matches text)
    (he : kind.Ends rest) :
    k.next = (some (.ok ⟨kind, String.ofList text, ⟨k.offset + byteLength blanks,
      k.offset + byteLength blanks + byteLength text⟩⟩),
      ⟨rest, k.offset + byteLength blanks + byteLength text⟩) := by
  obtain ⟨c, ds, rfl, hc⟩ := hm.head
  have hfirst : ∀ d ∈ (c :: (ds ++ rest)).head?, d ∉ separators := by simpa using hc
  obtain ⟨hgap, hrest⟩ := skip_of_blank hb hfirst
  have hskip : k.skip = ⟨c :: (ds ++ rest), k.offset + byteLength blanks⟩ := by
    rw [skip, hk, List.cons_append, hgap, hrest]
  rw [next, hskip]
  simp only [munch_of_matches hm he]

theorem next_of_matches {k : Cursor} {kind : Kind} {blanks text rest : List Char}
    (hk : k.rest = blanks ++ (text ++ rest)) (hb : Blank blanks) (hm : kind.Matches text)
    (he : kind.Ends rest) :
    ∃ t k', k.next = (some (.ok t), k') ∧ t.shape = (kind, String.ofList text)
      ∧ k'.rest = rest :=
  ⟨_, _, next_eq_of_matches hk hb hm he, rfl, rfl⟩

/-- What was scanned stands where it was scanned, behind blanks only -/
theorem matches_of_next {k k' : Cursor} {t : Token} (h : k.next = (some (.ok t), k')) :
    ∃ blanks, k.rest = blanks ++ (t.text.toList ++ k'.rest) ∧ Blank blanks
      ∧ t.kind.Matches t.text.toList ∧ t.kind.Ends k'.rest := by
  rw [next] at h
  split at h
  · cases h
  · rename_i c cs hskip
    cases hkind : (munch c cs).kind? with
    | none => simp only [hkind] at h; cases h
    | some kind =>
      simp only [hkind] at h
      cases h
      obtain ⟨hm, he⟩ := matches_munch hkind
      obtain ⟨_, hds⟩ := munch_text c cs
      have hc : c ≠ '\n' := by
        rintro rfl
        obtain ⟨d, ds, hd, hsep⟩ := hm.head
        rw [hd] at hds
        cases hds
        exact hsep (by decide)
      refine ⟨gap k.rest, ?_, blank_gap hskip hc, ?_, he⟩
      · rw [String.toList_ofList, munch_append, ← hskip]
        exact (gap_append_skip k.rest).symm
      · rwa [String.toList_ofList]

theorem comment_of_next {k k' : Cursor} (h : k.next = (none, k')) :
    ∃ blanks comment, k.rest = blanks ++ comment ∧ Blank blanks ∧ Comment comment := by
  rw [next] at h
  split at h
  · rename_i hskip
    exact comment_of_skip hskip
  · cases h

theorem tokens_of_renders {ws : List Shape} {cs : List Char} (h : Renders ws cs) :
    ∀ {k : Cursor}, k.rest = cs → ∃ ts, k.tokens = .ok ts ∧ ts.map shape = ws := by
  induction h with
  | nil hb hc =>
    intro k hk
    obtain ⟨k', hnext⟩ := next_of_comment hk hb hc
    exact ⟨[], tokens_of_none hnext, rfl⟩
  | cons hb hm he _ ih =>
    intro k hk
    obtain ⟨t, k', hnext, hshape, hrest⟩ := next_of_matches hk hb hm he
    obtain ⟨ts, hts, hws⟩ := ih hrest
    refine ⟨t :: ts, ?_, ?_⟩
    · rw [tokens_of_ok hnext, hts]
      rfl
    · rw [List.map_cons, hshape, hws, String.ofList_toList]

theorem renders_of_tokens {k : Cursor} : ∀ {ts : List Token}, k.tokens = .ok ts →
    Renders (ts.map shape) k.rest := by
  -- on what is left to scan: an answer leaves less of it
  induction hn : k.rest.length using Nat.strongRecOn generalizing k with
  | _ n ih =>
    subst hn
    intro ts h
    match hnext : k.next with
    | (none, k') =>
      rw [tokens_of_none hnext] at h
      cases h
      obtain ⟨blanks, comment, hk, hb, hc⟩ := comment_of_next hnext
      rw [hk]
      exact .nil hb hc
    | (some (.error d), k') =>
      rw [tokens_of_error hnext] at h
      cases h
    | (some (.ok t), k') =>
      rw [tokens_of_ok hnext] at h
      obtain ⟨us, hus, h⟩ := Except.bind_eq_ok_iff.1 h
      cases h
      obtain ⟨blanks, hk, hb, hm, he⟩ := matches_of_next hnext
      rw [hk]
      exact .cons hb hm he (ih _ (next_shorter hnext) rfl hus)

/-- The tokens that are left have given shapes exactly if what is left renders these -/
theorem tokens_iff_renders {k : Cursor} {ws : List Shape} :
    (∃ ts, k.tokens = .ok ts ∧ ts.map shape = ws) ↔ Renders ws k.rest := by
  constructor
  · rintro ⟨ts, hts, rfl⟩
    exact renders_of_tokens hts
  · intro h
    exact tokens_of_renders h rfl

end Cursor

end RegisterMachine.Token
