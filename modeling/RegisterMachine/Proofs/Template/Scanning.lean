import RegisterMachine.Proofs.Machine.Faults
import RegisterMachine.Proofs.Machine.Results
import RegisterMachine.Proofs.Template.Writing

/-!
# `RegisterMachine.Proofs.Template.Scanning` — a scanner that might refuse a template

Here a template is scanned as one would from a table of classes, without knowing what
the classes are: at each place the longest text of any class is a token, and where there
is none the template is refused.

    class        text (`Piece.Kind.Matches`)
    separator    one or more separators
    quoted       a quote, no quotes, and perhaps a quote
    name         one or more characters that are neither

`Scans` is a relation, so it is not clear that every template has an answer, or only
one.  It has: no place is refused, since each character alone is a text of some class,
and the longest texts are the pieces (`scans_iff`).  So `parts` leaves nothing out, and
neither does a message that is put out.
-/

namespace RegisterMachine.Template

/-- The classes of token in a template -/
inductive Piece.Kind where
  | separator
  | quoted
  | name
  deriving DecidableEq

def Piece.kind : Piece → Piece.Kind
  | .separator _ => .separator
  | .name _ => .name
  | .quoted _ _ => .quoted

/-- A token of a template: its class and its text -/
abbrev Piece.Token := Piece.Kind × List Char

def Piece.token (p : Piece) : Piece.Token :=
  (p.kind, p.raw)

/-- The texts of a class -/
def Piece.Kind.Matches : Piece.Kind → List Char → Prop
  | .separator, cs => cs ≠ [] ∧ Separators cs
  | .quoted, cs =>
    ∃ content, quote ∉ content ∧ (cs = quote :: content ∨ cs = quote :: (content ++ [quote]))
  | .name, cs => cs ≠ [] ∧ ∀ c ∈ cs, isNameChar c = true

/-- The first token of a text: of no class is there a longer one -/
structure Longest (k : Piece.Kind) (word rest : List Char) : Prop where
  ofClass : k.Matches word
  longest : ∀ (k' : Piece.Kind) (word' : List Char),
    word' <+: word ++ rest → k'.Matches word' → word'.length ≤ word.length

/-- The complaint about a place where no token starts -/
def refusal (c : Char) : Diagnostic :=
  ⟨.parse, "Invalid message template near " ++ Cause.named (String.singleton c), none⟩

/-- What scanning a text comes to: its tokens, or a refusal -/
inductive Scans : List Char → Except Diagnostic (List Piece.Token) → Prop
  | done : Scans [] (.ok [])
  | token {k : Piece.Kind} {word rest : List Char} {answer : Except Diagnostic (List Piece.Token)} :
      Longest k word rest → Scans rest answer →
      Scans (word ++ rest) (answer.map ((k, word) :: ·))
  | refused {c : Char} {rest : List Char} :
      (∀ (k : Piece.Kind) (word : List Char), word <+: c :: rest → ¬ k.Matches word) →
      Scans (c :: rest) (.error (refusal c))

/-! ## First tokens -/

theorem Piece.Kind.Matches.ne_nil {k : Piece.Kind} {word : List Char} (h : k.Matches word) :
    word ≠ [] := by
  cases k with
  | separator => exact h.1
  | name => exact h.1
  | quoted =>
    obtain ⟨content, _, rfl | rfl⟩ := h
    · exact List.cons_ne_nil _ _
    · exact List.cons_ne_nil _ _

/-- Each character is a text of some class -/
theorem exists_matches_singleton (c : Char) : ∃ k : Piece.Kind, k.Matches [c] := by
  by_cases hquote : c = quote
  · exact ⟨.quoted, [], List.not_mem_nil, .inl (congrArg (fun d => [d]) hquote)⟩
  by_cases hsep : isSeparator c = true
  · refine ⟨.separator, List.cons_ne_nil _ _, ?_⟩
    intro d hd
    rwa [List.mem_singleton.1 hd]
  · refine ⟨.name, List.cons_ne_nil _ _, ?_⟩
    intro d hd
    rw [List.mem_singleton.1 hd]
    simp [isNameChar, hquote, hsep]

/-- Where there is a token there is a longest one -/
theorem exists_longest {cs word : List Char} {k : Piece.Kind} (hstart : word <+: cs)
    (hmatches : k.Matches word) : ∃ k word rest, cs = word ++ rest ∧ Longest k word rest := by
  -- on what is behind the token: a longer one leaves less
  induction hn : cs.length - word.length using Nat.strongRecOn generalizing k word with
  | _ n ih =>
    by_cases h : ∀ (k' : Piece.Kind) (word' : List Char), word' <+: cs → k'.Matches word' →
        word'.length ≤ word.length
    · obtain ⟨rest, rfl⟩ := hstart
      exact ⟨k, word, rest, rfl, hmatches, h⟩
    · simp only [not_forall, Nat.not_le] at h
      obtain ⟨k', word', hstart', hmatches', hlonger⟩ := h
      have hle := hstart'.length_le
      exact ih _ (by omega) hstart' hmatches' rfl

/-- The first token cannot be made longer by what follows it -/
theorem Longest.not_matches_concat {k : Piece.Kind} {word rest : List Char} {c : Char}
    (h : Longest k word (c :: rest)) (k' : Piece.Kind) : ¬ k'.Matches (word ++ [c]) := by
  intro hmatches
  have hstart : word ++ [c] <+: word ++ c :: rest := ⟨rest, by simp⟩
  have hle := h.longest k' _ hstart hmatches
  rw [List.length_append, List.length_singleton] at hle
  omega

/-- The first token of a text is its first piece -/
theorem pieces_of_longest {k : Piece.Kind} {word rest : List Char} (h : Longest k word rest) :
    ∃ p : Piece, p.token = (k, word) ∧ pieces (word ++ rest) = p :: pieces rest := by
  cases k with
  | separator =>
    obtain ⟨hne, hword⟩ := h.ofClass
    refine ⟨.separator word, rfl, pieces_separators hne hword ?_⟩
    intro c hc
    obtain ⟨rest, rfl⟩ := List.head?_eq_some_iff.1 hc
    rw [Bool.eq_false_iff]
    intro hsep
    refine h.not_matches_concat .separator ⟨by simp, ?_⟩
    exact List.forall_mem_append.2 ⟨hword, by simpa using hsep⟩
  | name =>
    obtain ⟨hne, hword⟩ := h.ofClass
    refine ⟨.name word, rfl, pieces_name hne hword ?_⟩
    intro c hc
    obtain ⟨rest, rfl⟩ := List.head?_eq_some_iff.1 hc
    rw [Bool.eq_false_iff]
    intro hname
    refine h.not_matches_concat .name ⟨by simp, ?_⟩
    exact List.forall_mem_append.2 ⟨hword, by simpa using hname⟩
  | quoted =>
    obtain ⟨content, hcontent, rfl | rfl⟩ := h.ofClass
    · refine ⟨.quoted content false, by simp [Piece.token, Piece.kind, Piece.raw], ?_⟩
      cases rest with
      | nil =>
        rw [List.append_nil, pieces_unclosed hcontent, pieces]
      | cons c rest =>
        -- a quote would close the text, anything else would be in it
        by_cases hc : c = quote
        · exact absurd ⟨content, hcontent, .inr (by rw [hc]; rfl)⟩ (h.not_matches_concat .quoted)
        · refine absurd ⟨content ++ [c], ?_, .inl rfl⟩ (h.not_matches_concat .quoted)
          simp [hcontent, Ne.symm hc]
    · refine ⟨.quoted content true, by simp [Piece.token, Piece.kind, Piece.raw], ?_⟩
      have hsplit : quote :: (content ++ [quote]) ++ rest =
          quote :: (content ++ quote :: rest) := by
        simp
      rw [hsplit, pieces_quoted hcontent]

/-! ## Whole templates -/

theorem exists_scans (cs : List Char) : ∃ answer, Scans cs answer := by
  -- on what is left to scan: a token has at least one character
  induction hn : cs.length using Nat.strongRecOn generalizing cs with
  | _ n ih =>
    subst hn
    cases cs with
    | nil => exact ⟨_, .done⟩
    | cons c cs =>
      obtain ⟨k, hk⟩ := exists_matches_singleton c
      have hstart : [c] <+: c :: cs := ⟨cs, rfl⟩
      obtain ⟨k, word, rest, hsplit, hlongest⟩ := exists_longest hstart hk
      have hpos := List.length_pos_iff.2 hlongest.ofClass.ne_nil
      have hlength := congrArg List.length hsplit
      rw [List.length_append] at hlength
      obtain ⟨answer, hanswer⟩ := ih rest.length (by omega) rest rfl
      rw [hsplit]
      exact ⟨_, .token hlongest hanswer⟩

/-- Scanning a text has one answer, its pieces -/
theorem scans_iff {cs : List Char} {answer : Except Diagnostic (List Piece.Token)} :
    Scans cs answer ↔ answer = .ok ((pieces cs).map Piece.token) := by
  have hsound : ∀ {answer}, Scans cs answer → answer = .ok ((pieces cs).map Piece.token) := by
    intro answer h
    induction h with
    | done => rw [pieces]; rfl
    | token hlongest _ ih =>
      obtain ⟨p, hp, hpieces⟩ := pieces_of_longest hlongest
      rw [ih, hpieces, List.map_cons, hp]
      rfl
    | @refused c rest hno =>
      obtain ⟨k, hk⟩ := exists_matches_singleton c
      exact absurd hk (hno k [c] ⟨rest, rfl⟩)
  constructor
  · exact hsound
  · rintro rfl
    obtain ⟨answer, hanswer⟩ := exists_scans cs
    rwa [hsound hanswer] at hanswer

/-! ## Parts of tokens -/

/-- What is between quotes, of which the second may be missing -/
def unquoted (word : List Char) : List Char :=
  if word.tail.getLast? = some quote then word.tail.dropLast else word.tail

theorem unquoted_closed (content : List Char) :
    unquoted (quote :: (content ++ [quote])) = content := by
  simp [unquoted]

theorem unquoted_unclosed {content : List Char} (h : quote ∉ content) :
    unquoted (quote :: content) = content := by
  rw [unquoted, List.tail_cons, if_neg]
  intro hlast
  exact h (List.mem_of_getLast? hlast)

/-- What a token stands for, if it stands for anything -/
def Piece.Token.part? : Piece.Token → Option Part
  | (.separator, _) => none
  | (.quoted, word) => some (.text (String.ofList (unquoted word)))
  | (.name, word) => some (.register (String.ofList word))

theorem filterMap_token_pieces (cs : List Char) :
    ((pieces cs).map Piece.token).filterMap Piece.Token.part? = partsOf cs := by
  unfold partsOf
  induction cs using pieces_induction with
  | nil => rw [pieces]; rfl
  | separators hne hword hstop ih =>
    rw [pieces_separators hne hword hstop]
    exact ih
  | name hne hword hstop ih =>
    rw [pieces_name hne hword hstop]
    exact congrArg _ ih
  | quoted hcontent ih =>
    rename_i content rest
    have hpart : (Piece.quoted content true).token.part? = some (.text (String.ofList content)) :=
      congrArg (fun cs => some (Part.text (String.ofList cs))) (unquoted_closed content)
    rw [pieces_quoted hcontent, List.map_cons, List.filterMap_cons_some hpart, ih]
    rfl
  | unclosed hcontent =>
    rename_i content
    have hpart : (Piece.quoted content false).token.part? =
        some (.text (String.ofList content)) := by
      have hraw : (Piece.quoted content false).raw = quote :: content := by simp [Piece.raw]
      rw [Piece.token, hraw]
      exact congrArg (fun cs => some (Part.text (String.ofList cs))) (unquoted_unclosed hcontent)
    rw [pieces_unclosed hcontent, List.map_cons, List.filterMap_cons_some hpart]
    rfl

/-- What a template comes to once it is scanned: the parts of its tokens -/
def split (answer : Except Diagnostic (List Piece.Token)) : Except Diagnostic (List Part) :=
  answer.map (List.filterMap Piece.Token.part?)

theorem split_of_scans {template : String} {answer : Except Diagnostic (List Piece.Token)}
    (h : Scans template.toList answer) : split answer = .ok (parts template) := by
  rw [scans_iff.1 h]
  exact congrArg Except.ok (filterMap_token_pieces template.toList)

/-- The message of a template that was split, if it was -/
def message {V : Type} [Cell V] (registers : Registers V)
    (split : Except Diagnostic (List Part)) : Except Diagnostic String := do
  let ps ← split
  ((ps.mapM (Part.render registers)).map String.join).mapError fun cause => cause.diagnostic none

/-! ## Runs -/

/-- No run fails as a parser does -/
theorem kind_ne_parse_of_run {p : Program} {limit : Option Nat} {d : Diagnostic}
    (h : p.run limit = some (.error d)) : d.kind ≠ .parse := by
  obtain ⟨t, hfails⟩ := (Program.run_eq_some_iff.1 h).failsIn
  cases hfails with
  | failed _ _ _ hd =>
    have hkind := Machine.kind_of_dispatch hd
    intro hparse
    rw [hparse] at hkind
    cases hkind
  | cutOff _ _ _ => exact nofun

/-! ## Splitting and writing -/

/-- A template is always split, and into what was written.  A scanner that takes the longest token
of three classes has an answer for every template, and all of its answers are the parts, so that
messages are put out from the parts and no run fails as a parser does.  Each part can be written.
What is written of such parts, with gaps around them that keep two registers apart, is split into
them again; and where the last text is not closed, closing it makes no difference -/
theorem split_exact :
    (∀ template : String,
      (∃ answer, Scans template.toList answer) ∧
      (∀ answer, Scans template.toList answer → split answer = .ok (parts template) ∧
        ∀ registers : Registers Word, message registers (split answer) =
          (interpolate template registers).mapError fun cause => cause.diagnostic none) ∧
      ∀ part ∈ parts template, part.Writable) ∧
    (∀ (p : Program) (limit : Option Nat) (d : Diagnostic),
      p.run limit = some (.error d) → d.kind ≠ .parse) ∧
    (∀ (lead : List Char) (ps : List (Part × List Char)), Gaps lead ps →
      (∀ x ∈ ps, x.1.Writable) → parts (String.ofList (write lead ps)) = ps.map Prod.fst) ∧
    ∀ template : String, template.toList.count quote % 2 = 1 →
      parts (template.push quote) = parts template := by
  refine ⟨?_, ?_, ?_, ?_⟩
  · intro template
    refine ⟨exists_scans template.toList, ?_, (parts_eq_iff.1 rfl).writable⟩
    intro answer hanswer
    have hsplit := split_of_scans hanswer
    refine ⟨hsplit, ?_⟩
    intro registers
    rw [hsplit]
    rfl
  · intro p limit d
    exact kind_ne_parse_of_run
  · intro lead ps hgaps hps
    rw [parts_eq_iff, String.toList_ofList]
    exact writes_write hgaps hps
  · intro template hodd
    rw [parts_eq_iff, String.toList_push]
    exact (parts_eq_iff.1 rfl).close hodd

/-- Two names side by side, and a text between two others -/
theorem split_exact_adjacent :
    parts " x'='y, z" = [.register "x", .text "=", .register "y", .register "z"] ∧
      parts "a 'b'" = parts "a 'b" := by
  refine ⟨?_, ?_⟩
  · refine split_exact.2.2.1 [' ']
      [(.register "x", []), (.text "=", []), (.register "y", [',', ' ']), (.register "z", [])]
      ⟨?_, ?_, ?_⟩ ?_
    · simp [Separators, isSeparator]
    · simp [Separators, isSeparator]
    · simp [Part.isRegister]
    · simp [Part.Writable, quote]
  · exact split_exact.2.2.2 "a 'b" (by decide)

end RegisterMachine.Template
