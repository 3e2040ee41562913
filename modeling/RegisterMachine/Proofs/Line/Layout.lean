import RegisterMachine.Proofs.Line.Grammar
import RegisterMachine.Proofs.Line.Places

/-!
# `RegisterMachine.Proofs.Line.Layout` — lines with other blanks and comments

Blanks may be put in front of a line and behind it, and then a comment, if the line
does not end inside quotes.  The line says what it said before, or is refused for the
same reason (`alike_parse`).

The reader leaves blanks and comments out in two ways, and both have to agree:

    first token        what is left      blanks and comments are left out by
    `msg`              a template        cutting and trimming      (`template_append_trailing`)
    anything else      tokens            the scanner               (`Token.Cursor.tokens_of_framed`)

Quotes matter to templates only, but they are counted on the whole line: what stands
in front of a template is `msg`, which has none (`Trailing.of_plain_append`).  A
template that is a lone colon is read as tokens after all, so such a line is read in
both ways.
-/

namespace RegisterMachine

open Token (Blank Cursor)
open Text (byteLength)

/-! ## Spans -/

namespace Span

variable {source target growth : Nat} {s s' t t' : Span}

theorem Moved.expand (hs : Moved source target growth s s') (ht : Moved source target growth t t') :
    Moved source target growth (s.expand t) (s'.expand t') := by
  obtain ⟨hstart, hle, hstop⟩ := hs
  obtain ⟨hstart', hle', hstop'⟩ := ht
  refine ⟨?_, ?_, ?_⟩
  · show min s'.start t'.start + source = min s.start t.start + target
    omega
  · show max s.stop t.stop + target ≤ max s'.stop t'.stop + source
    omega
  · show max s'.stop t'.stop + source ≤ max s.stop t.stop + target + growth
    omega

end Span

/-- What is left of a line becomes longer by the gap that is put behind it -/
theorem Token.Cursor.Framed.span {source target : Nat} {behind : List Char} {k k' : Cursor}
    (h : Framed source target [] behind k k') :
    Span.Moved source target (byteLength behind) k.span k'.span := by
  have hmoved := h.moved
  rw [Text.byteLength_nil, Nat.add_zero] at hmoved
  have hlength : byteLength k'.rest = byteLength k.rest + byteLength behind := by
    rw [h.rest_eq, List.nil_append, Text.byteLength_append]
  refine ⟨hmoved, ?_, ?_⟩
  · show k.offset + byteLength k.rest + target ≤ k'.offset + byteLength k'.rest + source
    omega
  · show k'.offset + byteLength k'.rest + source ≤ k.offset + byteLength k.rest + target + _
    omega

namespace Line

/-! ## Blanks and comments around a line -/

/-- The number of quotes before the first semicolon outside quotes is even, and so is the number
of all quotes if there is no such semicolon -/
def Balanced (cs : List Char) : Prop :=
  (Template.uncommented cs).count Template.quote % 2 = 0

/-- What may be put behind a line: blanks, and then a comment if no quotes are open -/
inductive Trailing (cs : List Char) : List Char → Prop
  | blanks {ws : List Char} : Blank ws → Trailing cs ws
  | comment {ws ds : List Char} :
      Blank ws → Balanced cs → '\n' ∉ ds → Trailing cs (ws ++ ';' :: ds)

/-- The other line has blanks in front and something behind -/
def Relaid (cs cs' : List Char) : Prop :=
  ∃ before behind, cs' = before ++ (cs ++ behind) ∧ Blank before ∧ Trailing cs behind

variable {cs behind : List Char}

theorem Trailing.gap (h : Trailing cs behind) : Token.skip behind = [] := by
  cases h with
  | blanks hws =>
    have hskip := Token.skip_of_comment hws (.inl rfl)
    rwa [List.append_nil] at hskip
  | comment hws _ hds => exact Token.skip_of_comment hws (.inr ⟨_, rfl, hds⟩)

/-- Behind a text without quotes and semicolons the quotes are counted as without it -/
theorem balanced_append_iff {as : List Char} (h : Template.Plain as) :
    Balanced (as ++ cs) ↔ Balanced cs := by
  have hnone : as.count Template.quote = 0 :=
    List.count_eq_zero.2 fun hmem => (h _ hmem).2 rfl
  rw [Balanced, Template.uncommented, Template.uncommentedFrom_append h, List.count_append, hnone,
    Nat.zero_add]
  rfl

theorem Trailing.of_plain_append {as : List Char} (has : Template.Plain as)
    (h : Trailing (as ++ cs) behind) : Trailing cs behind := by
  cases h with
  | blanks hws => exact .blanks hws
  | comment hws heven hds => exact .comment hws ((balanced_append_iff has).1 heven) hds

/-! ## Templates -/

theorem template_append_trailing (h : Trailing cs behind) :
    template (cs ++ behind) = template cs := by
  obtain ⟨vs, hcut, hvs⟩ : ∃ vs, Template.uncommented (cs ++ behind) =
      Template.uncommented cs ++ vs ∧ Text.White vs := by
    cases h with
    | blanks hws =>
      rw [← List.append_nil behind]
      exact Template.uncommented_append_of_even (white_of_blank hws) (.inl rfl)
    | comment hws heven hds =>
      exact Template.uncommented_append_of_even (white_of_blank hws) (.inr ⟨⟨_, rfl⟩, heven⟩)
  rw [template, template, hcut]
  exact Text.trim_append .nil hvs _

theorem plain_of_next_msg {k k' : Cursor} {t : Token} (h : k.next = (some (.ok t), k'))
    (ht : t.text = "msg") : ∃ as, k.rest = as ++ k'.rest ∧ Template.Plain as := by
  obtain ⟨blanks, hk, hblanks, _⟩ := Cursor.matches_of_next h
  refine ⟨blanks ++ t.text.toList, ?_, ?_⟩
  · rw [hk, List.append_assoc]
  · intro c hc
    rcases List.mem_append.1 hc with hc | hc
    · exact Template.Plain.of_white (white_of_blank hblanks) c hc
    · have hmem : c ∈ ['m', 's', 'g'] := by rwa [ht] at hc
      rcases List.mem_cons.1 hmem with rfl | hmem
      · decide
      rcases List.mem_cons.1 hmem with rfl | hmem
      · decide
      · rw [List.mem_singleton.1 hmem]
        decide

/-! ## Reading -/

variable {source target : Nat} {before : List Char}

theorem alike_ofFirst {first first' : Token} {k k' : Cursor}
    (hfirst : first.Alike (Span.Moved source target (byteLength behind)) first')
    (h : Cursor.Framed source target [] behind k k')
    (htemplate : first.text = "msg" → template k'.rest = template k.rest) :
    Except.Rel (Diagnostic.Alike (Span.Moved source target (byteLength behind))) Eq
      (ofFirst first k) (ofFirst first' k') := by
  rw [ofFirst, ofFirst, ← hfirst.kind_eq, ← hfirst.text_eq]
  split
  · exact .error (Cause.alike_diagnostic _ hfirst.span)
  by_cases hmsg : first.text = "msg"
  · rw [htemplate hmsg]
    split
    · split
      · exact .error (Cause.alike_diagnostic _ (hfirst.span.expand h.span))
      · exact .ok rfl
    · exact (Cursor.tokens_of_framed h _).bind fun _ _ hrest => alike_ofTokens hfirst hrest
  · rw [if_neg fun hand => hmsg hand.1, if_neg fun hand => hmsg hand.1]
    exact (Cursor.tokens_of_framed h _).bind fun _ _ hrest => alike_ofTokens hfirst hrest

/-- A line with blanks put in front of it and something behind it says the same, or is refused
for the same reason, about a span that has moved with its text -/
theorem alike_parse {l l' : Line} (h : Cursor.Framed source target before behind l.start l'.start)
    (ht : Trailing l.text.toList behind) :
    Except.Rel (Diagnostic.Alike (Span.Moved source target (byteLength behind))) Eq
      l.parse l'.parse := by
  rcases hnext : l.start.next with ⟨_ | r, k⟩
  · obtain ⟨k', hnext'⟩ := Cursor.next_none_of_framed h hnext
    rw [parse_of_next_none hnext, parse_of_next_none hnext']
    exact .ok rfl
  · obtain ⟨r', k', hnext', hr, hk⟩ := Cursor.next_some_of_framed h (byteLength behind) hnext
    cases hr with
    | error hd =>
      rw [parse_of_next_error hnext, parse_of_next_error hnext']
      exact .error hd
    | ok hfirst =>
      rw [parse_of_next_ok hnext, parse_of_next_ok hnext']
      refine alike_ofFirst hfirst hk ?_
      intro hmsg
      obtain ⟨as, hrest, has⟩ := plain_of_next_msg hnext hmsg
      have hwhole : Trailing l.start.rest behind := ht
      rw [hrest] at hwhole
      rw [hk.rest_eq, List.nil_append]
      exact template_append_trailing (hwhole.of_plain_append has)

end Line

end RegisterMachine
