import RegisterMachine.Proofs.Token.Place

/-!
# `RegisterMachine.Proofs.Token.Layout` — scanning a text with gaps put around it

Blanks in front of a text and a gap behind it are no tokens.  The scanner finds the
same in the text with and without them, each token as far from its old place as the
text itself has moved.

    in front     blanks, which belong to the first gap                  (`skip_append_of_blank`)
    behind       blanks, and perhaps a comment: what is skipped whole   (`skip_append_of_gap`)

A gap behind a text makes no token of it longer (`munch_append_of_gap`).  Here the
text must not have a newline, as no line has one: a comment ends there, so what is
behind it would not be skipped.

What is found is compared place by place.  `Span.Moved` says how far apart two
places are; `Alike` answers differ in their places only.
-/

namespace RegisterMachine

/-- The span has moved as far as from one place to another, and it may have been made longer -/
structure Span.Moved (source target growth : Nat) (s s' : Span) : Prop where
  start : s'.start + source = s.start + target
  le_stop : s.stop + target ≤ s'.stop + source
  stop_le : s'.stop + source ≤ s.stop + target + growth

/-! ## Answers that differ in their places -/

section

variable (R : Span → Span → Prop)

/-- The same complaint, about places that are related -/
structure Diagnostic.Alike (d d' : Diagnostic) : Prop where
  kind : d.kind = d'.kind
  message : d.message = d'.message
  span : Option.Rel R d.span d'.span

/-- The same token, at places that are related -/
structure Token.Alike (t t' : Token) : Prop where
  shape : t.shape = t'.shape
  span : R t.span t'.span

end

variable {R : Span → Span → Prop}

theorem Token.Alike.kind_eq {t t' : Token} (h : t.Alike R t') : t.kind = t'.kind :=
  congrArg Prod.fst h.shape

theorem Token.Alike.text_eq {t t' : Token} (h : t.Alike R t') : t.text = t'.text :=
  congrArg Prod.snd h.shape

/-- One cause is put into the same words wherever it is -/
theorem Cause.alike_diagnostic (c : Cause) {s s' : Span} (h : R s s') :
    (c.diagnostic (some s)).Alike R (c.diagnostic (some s')) :=
  ⟨rfl, rfl, .some h⟩

namespace Token

open Text (byteLength)

variable {before behind : List Char}

/-! ## Gaps in front of a text and behind it -/

theorem skip_append_of_blank (hb : Blank before) (cs : List Char) :
    skip (before ++ cs) = skip cs := by
  rw [skip, skip, List.dropWhile_append_of_pos hb]

theorem no_newline_of_gap (h : skip behind = []) : '\n' ∉ behind := by
  obtain ⟨blanks, comment, rfl, hb, hc⟩ := comment_of_skip h
  simp [hb.no_newline, hc.no_newline]

theorem skip_append_of_gap {cs : List Char} (hcs : '\n' ∉ cs) (h : skip behind = []) :
    skip (cs ++ behind) = if skip cs = [] then [] else skip cs ++ behind := by
  rw [skip, skip, List.dropWhile_append]
  cases hdrop : cs.dropWhile isBlank with
  | nil => exact h
  | cons c ds =>
    have hds : '\n' ∉ ds := fun hmem =>
      hcs ((List.dropWhile_sublist isBlank).subset (hdrop ▸ List.mem_cons_of_mem c hmem))
    by_cases hc : c = ';'
    · subst hc
      have hboth : '\n' ∉ ds ++ behind := by simp [hds, no_newline_of_gap h]
      simp [dropWhile_of_no_newline hds, dropWhile_of_no_newline hboth]
    · simp [hc]

/-! ## Lexemes before a gap -/

/-- No token goes on with a gap -/
theorem Kind.ends_of_gap (kind : Kind) (h : skip behind = []) : kind.Ends behind := by
  obtain ⟨blanks, comment, rfl, hb, hc⟩ := comment_of_skip h
  exact Kind.ends_of_blank hb fun _ => hc.ends kind

theorem takeWhile_append_of_head {p : Char → Bool} (cs : List Char)
    (h : ∀ c ∈ behind.head?, p c = false) :
    (cs ++ behind).takeWhile p = cs.takeWhile p ∧
      (cs ++ behind).dropWhile p = cs.dropWhile p ++ behind := by
  have hsplit := List.takeWhile_append_dropWhile (p := p) (l := cs)
  have htake : ∀ c ∈ cs.takeWhile p, p c = true := fun _ => List.mem_takeWhile_imp
  have hstop : ∀ c ∈ (cs.dropWhile p ++ behind).head?, p c = false := by
    have hfirst : ∀ c ∈ (cs.dropWhile p).head?, p c = false := stop_dropWhile
    cases hdrop : cs.dropWhile p with
    | nil => exact h
    | cons c ds =>
      rw [hdrop] at hfirst
      exact hfirst
  have heq := takeWhile_append_of_stop htake hstop
  rwa [← List.append_assoc, hsplit] at heq

theorem munch_append_of_gap (c : Char) (cs : List Char) (h : skip behind = []) :
    munch c (cs ++ behind) = { munch c cs with rest := (munch c cs).rest ++ behind } := by
  obtain ⟨hname, hname'⟩ := takeWhile_append_of_head cs (Kind.ends_of_gap .identifier h)
  obtain ⟨hint, hint'⟩ := takeWhile_append_of_head cs (Kind.ends_of_gap .integer h)
  have hstarts : startsInteger c (cs ++ behind) = startsInteger c cs := by
    cases cs with
    | cons => rfl
    | nil =>
      have hdigit : behind.head?.any Char.isDigit = false := by
        cases hhead : behind.head? with
        | none => rfl
        | some d => exact Kind.ends_of_gap .integer h d hhead
      rw [List.nil_append, startsInteger, startsInteger, hdigit]
      rfl
  rw [munch, munch, hstarts]
  split
  · exact congr (congrArg _ (congrArg (c :: ·) hname)) hname'
  split
  · exact congr (congrArg _ (congrArg (c :: ·) hint)) hint'
  repeat' split
  all_goals rfl

/-! ## Scanning -/

namespace Cursor

/-- The other cursor has the same text before it, with blanks in front and a gap behind.  The text
starts as far from where it did as from one place to another -/
structure Framed (source target : Nat) (before behind : List Char) (k k' : Cursor) : Prop where
  rest_eq : k'.rest = before ++ (k.rest ++ behind)
  blank : Blank before
  gap_eq : Token.skip behind = []
  no_newline : '\n' ∉ k.rest
  moved : k'.offset + byteLength before + source = k.offset + target

variable {source target : Nat} {k k' : Cursor}

theorem next_none_of_framed (h : Framed source target before behind k k') {l : Cursor}
    (hnext : k.next = (none, l)) : ∃ l', k'.next = (none, l') := by
  obtain ⟨blanks, comment, hk, hb, hc⟩ := comment_of_next hnext
  have hskip : Token.skip k.rest = [] := by
    rw [hk]
    exact skip_of_comment hb hc
  have hskip' : k'.skip.rest = [] := by
    change Token.skip k'.rest = []
    rw [h.rest_eq, skip_append_of_blank h.blank, skip_append_of_gap h.no_newline h.gap_eq,
      if_pos hskip]
  rw [next, hskip']
  exact ⟨_, rfl⟩

/-- Behind its gap the text is the same, and as far from where it was as before -/
theorem skip_of_framed (h : Framed source target before behind k k') (hk : k.skip.rest ≠ []) :
    k'.skip.rest = k.skip.rest ++ behind ∧ k'.skip.offset + source = k.skip.offset + target := by
  have hrest : k'.skip.rest = k.skip.rest ++ behind := by
    change Token.skip k'.rest = Token.skip k.rest ++ behind
    rw [h.rest_eq, skip_append_of_blank h.blank, skip_append_of_gap h.no_newline h.gap_eq]
    exact if_neg hk
  refine ⟨hrest, ?_⟩
  -- the gap is what is not skipped, so it has the blanks in front of it
  have hgap : gap k'.rest = before ++ gap k.rest := by
    have hsplit : gap k.rest ++ k.skip.rest = k.rest := gap_append_skip k.rest
    have hsplit' : gap k'.rest ++ k'.skip.rest = k'.rest := gap_append_skip k'.rest
    have hwhole : k'.rest = before ++ gap k.rest ++ (k.skip.rest ++ behind) := by
      rw [h.rest_eq, List.append_assoc, ← List.append_assoc (gap k.rest), hsplit]
    rw [hrest, hwhole] at hsplit'
    exact hwhole ▸ List.append_cancel_right hsplit'
  have hoffset : k.skip.offset = k.offset + byteLength (gap k.rest) := rfl
  have hoffset' : k'.skip.offset = k'.offset + byteLength (gap k'.rest) := rfl
  have hmoved := h.moved
  rw [hoffset, hoffset', hgap, Text.byteLength_append]
  omega

/-- The same answer is found, as far from where it was as the text, and then the same text is
left -/
theorem next_some_of_framed (h : Framed source target before behind k k') (growth : Nat)
    {l : Cursor} {r : Except Diagnostic Token} (hnext : k.next = (some r, l)) :
    ∃ r' l', k'.next = (some r', l') ∧
      Except.Rel (Diagnostic.Alike (Span.Moved source target growth))
        (Token.Alike (Span.Moved source target growth)) r r' ∧
      Framed source target [] behind l l' := by
  have hleads := leads_next hnext
  rw [next] at hnext
  split at hnext
  · cases hnext
  · rename_i c cs hk
    obtain ⟨hrest, hoffset⟩ := skip_of_framed h (by rw [hk]; exact List.cons_ne_nil _ _)
    rw [hk, List.cons_append] at hrest
    have hspan : Span.Moved source target growth
        ⟨k.skip.offset, k.skip.offset + byteLength (munch c cs).text⟩
        ⟨k'.skip.offset, k'.skip.offset + byteLength (munch c cs).text⟩ := by
      refine ⟨hoffset, ?_, ?_⟩ <;> dsimp only <;> omega
    have hframed : Framed source target [] behind
        ⟨(munch c cs).rest, k.skip.offset + byteLength (munch c cs).text⟩
        ⟨(munch c cs).rest ++ behind, k'.skip.offset + byteLength (munch c cs).text⟩ := by
      cases hnext
      obtain ⟨_, hsplit, _⟩ := hleads
      have hnewline := h.no_newline
      rw [hsplit] at hnewline
      refine ⟨rfl, .nil, h.gap_eq, fun hmem => hnewline (List.mem_append_right _ hmem), ?_⟩
      simp only [Text.byteLength_nil]
      omega
    rw [next, hrest]
    simp only [munch_append_of_gap c cs h.gap_eq]
    cases hkind : (munch c cs).kind? with
    | none =>
      simp only [hkind] at hnext
      cases hnext
      exact ⟨_, _, rfl, .error (Cause.alike_diagnostic _ hspan), hframed⟩
    | some kind =>
      simp only [hkind] at hnext
      cases hnext
      exact ⟨_, _, rfl, .ok ⟨rfl, hspan⟩, hframed⟩

/-- The same tokens are found, or the same fault -/
theorem tokens_of_framed (h : Framed source target before behind k k') (growth : Nat) :
    Except.Rel (Diagnostic.Alike (Span.Moved source target growth))
      (List.Forall₂ (Token.Alike (Span.Moved source target growth))) k.tokens k'.tokens := by
  -- on what is left to scan: an answer leaves less of it
  induction hn : k.rest.length using Nat.strongRecOn generalizing k k' before with
  | _ n ih =>
    subst hn
    match hnext : k.next with
    | (none, l) =>
      obtain ⟨l', hnext'⟩ := next_none_of_framed h hnext
      rw [tokens_of_none hnext, tokens_of_none hnext']
      exact .ok .nil
    | (some r, l) =>
      obtain ⟨r', l', hnext', hr, hl⟩ := next_some_of_framed h growth hnext
      rw [tokens_of_some hnext, tokens_of_some hnext']
      refine hr.bind fun t t' ht => ?_
      exact (ih _ (next_shorter hnext) hl rfl).bind fun ts ts' hts => .ok (.cons ht hts)

end Cursor

end Token

end RegisterMachine
