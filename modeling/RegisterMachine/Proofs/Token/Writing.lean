import RegisterMachine.Proofs.Token.Render

/-!
# `RegisterMachine.Proofs.Token.Writing` — tokens that are written down and scanned again

`Renders` says of a text which tokens it is scanned from.  Here it is the tokens that are
given: each comes with the blanks to write in front of it, and the text is put together
from them (`written`), perhaps with more blanks and a comment behind the last.

    two neighbours                          blanks between them
    a comma or a colon, and any token       as one likes
    two other tokens                        at least one

Written without a blank, two names would be one, and `5` behind `a` would be a part of it.
Punctuation runs into nothing and nothing runs into it, so no blank is asked for there
(`Spaced.Apart`).  What is scanned is then the list that was written, and each token is found
where it was put (`lex_written`).
-/

namespace RegisterMachine.Token

open Text (byteLength)

/-- The classes of the tokens that are one character of punctuation -/
def Kind.IsMark (kind : Kind) : Prop :=
  kind = .comma ∨ kind = .colon

/-- A token to be written, and the blanks in front of it -/
structure Spaced where
  blanks : List Char
  kind : Kind
  text : String
  blank : Blank blanks
  fits : kind.Matches text.toList

namespace Spaced

def shape (w : Spaced) : Shape :=
  (w.kind, w.text)

/-- What is written for the token -/
def chars (w : Spaced) : List Char :=
  w.blanks ++ w.text.toList

/-- The second token may be written behind the first -/
def Apart (w v : Spaced) : Prop :=
  v.blanks = [] → w.kind.IsMark ∨ v.kind.IsMark

/-- The token as it is found if its blanks begin at a place in the source -/
def token (w : Spaced) (n : Nat) : Token :=
  ⟨w.kind, w.text, ⟨n + byteLength w.blanks, n + byteLength w.chars⟩⟩

end Spaced

/-- Tokens written one behind the other -/
def written (words : List Spaced) : List Char :=
  words.flatMap Spaced.chars

/-- The tokens as they are found if they are written from a place in the source on -/
def placed (n : Nat) : List Spaced → List Token
  | [] => []
  | w :: words => w.token n :: placed (n + byteLength w.chars) words

theorem written_cons (w : Spaced) (words : List Spaced) :
    written (w :: words) = w.chars ++ written words :=
  List.flatMap_cons

theorem map_shape_placed (n : Nat) (words : List Spaced) :
    (placed n words).map shape = words.map Spaced.shape := by
  induction words generalizing n with
  | nil => rfl
  | cons w words ih =>
    rw [placed, List.map_cons, List.map_cons, ih]
    rfl

/-- A token is found behind what was written before it -/
theorem getElem?_placed (n : Nat) (front : List Spaced) (w : Spaced) (back : List Spaced) :
    (placed n (front ++ w :: back))[front.length]? =
      some (w.token (n + byteLength (written front))) := by
  induction front generalizing n with
  | nil => rfl
  | cons v front ih =>
    rw [List.cons_append, placed, List.length_cons, List.getElem?_cons_succ, ih, written_cons,
      Text.byteLength_append, Nat.add_assoc]

/-! ## Neighbours -/

/-- Punctuation is not made longer by anything -/
theorem Kind.IsMark.ends {kind : Kind} (h : kind.IsMark) (rest : List Char) : kind.Ends rest := by
  rcases h with rfl | rfl
  · exact fun _ _ => rfl
  · exact fun _ _ => rfl

/-- Punctuation makes no token longer -/
theorem Kind.ends_of_mark (kind : Kind) {mark : Kind} (h : mark.IsMark) {text : List Char}
    (hm : mark.Matches text) (rest : List Char) : kind.Ends (text ++ rest) := by
  rcases h with rfl | rfl
  · obtain rfl : text = [','] := hm
    exact kind.ends_cons (by simp) rest
  · obtain rfl : text = [':'] := hm
    exact kind.ends_cons (by simp) rest

/-- A token ends before the one that is written behind it -/
theorem Spaced.Apart.ends {w v : Spaced} (h : w.Apart v) (rest : List Char) :
    w.kind.Ends (v.chars ++ rest) := by
  rw [Spaced.chars, List.append_assoc]
  refine Kind.ends_of_blank v.blank ?_
  intro hblanks
  rcases h hblanks with hw | hv
  · exact hw.ends _
  · exact w.kind.ends_of_mark hv v.fits rest

/-! ## Scanning what was written -/

/-- The tokens that are written in front of a gap are found at their places, and no others -/
theorem tokens_written {tail comment : List Char} (htail : Blank tail) (hcomment : Comment comment)
    {words : List Spaced} (hapart : words.IsChain Spaced.Apart) (n : Nat) :
    (Cursor.mk (written words ++ (tail ++ comment)) n).tokens = .ok (placed n words) := by
  induction words generalizing n with
  | nil =>
    obtain ⟨k, hnext⟩ := Cursor.next_of_comment (k := ⟨tail ++ comment, n⟩) rfl htail hcomment
    exact Cursor.tokens_of_none hnext
  | cons w words ih =>
    have hends : w.kind.Ends (written words ++ (tail ++ comment)) := by
      cases words with
      | nil =>
        show w.kind.Ends (tail ++ comment)
        exact Kind.ends_of_blank htail fun _ => hcomment.ends w.kind
      | cons v words =>
        rw [written_cons, List.append_assoc]
        exact hapart.rel.ends _
    have hrest : (Cursor.mk (written (w :: words) ++ (tail ++ comment)) n).rest =
        w.blanks ++ (w.text.toList ++ (written words ++ (tail ++ comment))) := by
      simp [written_cons, Spaced.chars]
    have hnext := Cursor.next_eq_of_matches hrest w.blank w.fits hends
    rw [Cursor.tokens_of_ok hnext, Nat.add_assoc, ← Text.byteLength_append, String.ofList_toList]
    show (Cursor.mk (written words ++ (tail ++ comment)) (n + byteLength w.chars)).tokens >>= _ = _
    rw [ih hapart.of_cons]
    rfl

/-- A list of tokens that is written down and scanned is found again, each of them at the place
where it was written.  Any blanks may be in front of the first token and behind the last, and a
comment behind these; any may be between two neighbours, but if neither is a comma or a colon there
must be one at least -/
theorem lex_written {words : List Spaced} {tail comment : List Char} (offset : Nat)
    (hapart : words.IsChain Spaced.Apart) (htail : Blank tail) (hcomment : Comment comment) :
    ∃ ts, lex (String.ofList (written words ++ (tail ++ comment))) offset = .ok ts ∧
      ts.map shape = words.map Spaced.shape ∧
      ∀ front w back, words = front ++ w :: back →
        ts[front.length]? = some ⟨w.kind, w.text,
          ⟨offset + byteLength (written front ++ w.blanks),
            offset + byteLength (written front ++ (w.blanks ++ w.text.toList))⟩⟩ := by
  refine ⟨placed offset words, ?_, map_shape_placed offset words, ?_⟩
  · rw [lex, Cursor.start, String.toList_ofList]
    exact tokens_written htail hcomment hapart offset
  · rintro front w back rfl
    rw [getElem?_placed, Text.byteLength_append, Text.byteLength_append, ← Nat.add_assoc,
      ← Nat.add_assoc]
    rfl

/-- Punctuation without blanks around it, and a negative integer behind a comma -/
theorem lex_written_marks :
    ∃ words : List Spaced, words.IsChain Spaced.Apart ∧ Blank ['\t'] ∧ Comment [';', ':'] ∧
      written words ++ (['\t'] ++ [';', ':']) = "a:,-5 b\t;:".toList ∧
      ∃ ts, lex (String.ofList (written words ++ (['\t'] ++ [';', ':']))) 9 = .ok ts ∧
        ts.map shape = [(.identifier, "a"), (.colon, ":"), (.comma, ","), (.integer, "-5"),
          (.identifier, "b")] ∧
        ts[3]? = some ⟨.integer, "-5", ⟨12, 14⟩⟩ := by
  let a : Spaced := ⟨[], .identifier, "a", .nil, 'a', [], rfl, by decide, by simp⟩
  let colon : Spaced := ⟨[], .colon, ":", .nil, rfl⟩
  let comma : Spaced := ⟨[], .comma, ",", .nil, rfl⟩
  let five : Spaced := ⟨[], .integer, "-5", .nil, '-', ['5'], rfl, by decide, by simp⟩
  let b : Spaced := ⟨[' '], .identifier, "b", by simp [Blank, isBlank], 'b', [], rfl, by decide,
    by simp⟩
  have hapart : [a, colon, comma, five, b].IsChain Spaced.Apart := by
    refine .cons_cons ?_ (.cons_cons ?_ (.cons_cons ?_ (.cons_cons ?_ (.singleton b))))
    · exact fun _ => .inr (.inr rfl)
    · exact fun _ => .inl (.inr rfl)
    · exact fun _ => .inl (.inl rfl)
    · intro h
      cases h
  have htail : Blank ['\t'] := by simp [Blank, isBlank]
  have hcomment : Comment [';', ':'] := .inr ⟨[':'], rfl, by simp⟩
  obtain ⟨ts, hts, hshapes, hplaces⟩ := lex_written 9 hapart htail hcomment
  have hfive := hplaces [a, colon, comma] five [b] rfl
  exact ⟨_, hapart, htail, hcomment, by decide, ts, hts, hshapes, hfive.trans (by decide)⟩

end RegisterMachine.Token
