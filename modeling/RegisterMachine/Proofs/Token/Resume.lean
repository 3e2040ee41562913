import RegisterMachine.Proofs.Text.Bytes
import RegisterMachine.Proofs.Token.Layout
import RegisterMachine.Proofs.Token.Place
import RegisterMachine.Proofs.Token.Tiling

/-!
# `RegisterMachine.Proofs.Token.Resume` — a scanner that is stopped and taken up again

A cursor has what is left of a line and nothing else, so there is nothing in it to forget.
A `Scanner` keeps the whole line and where it has come to in it, counted in bytes, and it
goes through all stretches of the line, those it does not answer with among them:

    stretch                              what the scanner does with it
    blanks; a comment                    goes on to the next
    a token; an unknown character        answers, at the bounds of the stretch
    none, as the line has ended          answers that there is nothing

What is behind a scanner, with the place where that is, is a cursor (`Scanner.Follows`),
and the two give the same answers from call to call (`Follows.next`, `Follows.calls`).
So a scanner on the rest of a line alone gives the answers of the one that has come there
from the front: both follow one cursor (`resume_exact`).

Here the line may have newlines.  A comment ends before one, which is then unknown.
-/

namespace RegisterMachine.Token

open Text (byteLength)

/-! ## Scanners -/

/-- What a stretch of a line is -/
inductive Stretch where
  | blanks
  | comment
  | token (kind : Kind)
  | unknown (c : Char)

/-- The first stretch of a text, and its characters -/
def stretch (c : Char) (cs : List Char) : Stretch × List Char :=
  if isBlank c then (.blanks, c :: cs.takeWhile isBlank)
  else if c = ';' then (.comment, c :: cs.takeWhile (· != '\n'))
  else match (munch c cs).kind? with
    | some kind => (.token kind, (munch c cs).text)
    | none => (.unknown c, (munch c cs).text)

/-- A stretch is a piece of the text from its start on, and has the first character of it -/
theorem stretch_append (c : Char) (cs : List Char) :
    ∃ ds rest, (stretch c cs).2 = c :: ds ∧ cs = ds ++ rest := by
  rw [stretch]
  split
  · exact ⟨_, _, rfl, List.takeWhile_append_dropWhile.symm⟩
  split
  · exact ⟨_, _, rfl, List.takeWhile_append_dropWhile.symm⟩
  obtain ⟨ds, hds⟩ := munch_text c cs
  have hsplit := munch_append c cs
  rw [hds] at hsplit
  have hrest := (List.cons.inj hsplit).2.symm
  split
  · exact ⟨ds, _, hds, hrest⟩
  · exact ⟨ds, _, hds, hrest⟩

/-- A scanner on a line that stands at a place in the source -/
structure Scanner where
  line : String
  offset : Nat
  /-- The bounds of the latest stretch, in bytes of the line -/
  latest : Span

namespace Scanner

/-- A scanner that has not been called -/
def start (line : String) (offset : Nat) : Scanner :=
  ⟨line, offset, ⟨0, 0⟩⟩

/-- The text behind the latest stretch -/
def rest (k : Scanner) : List Char :=
  Text.dropBytes k.latest.stop k.line.toList

/-- The text behind the latest stretch, and where it stands in the source -/
def remainder (k : Scanner) : String × Span :=
  (String.ofList k.rest,
    ⟨k.offset + k.latest.stop, k.offset + k.latest.stop + byteLength k.rest⟩)

/-- The scanner with a stretch of so many bytes behind the latest -/
def past (k : Scanner) (n : Nat) : Scanner :=
  { k with latest := ⟨k.latest.stop, k.latest.stop + n⟩ }

/-- A stretch takes away from what is left of the line -/
theorem past_shorter {k : Scanner} {c : Char} {cs : List Char} (h : k.rest = c :: cs) :
    byteLength k.line.toList - (k.latest.stop + byteLength (stretch c cs).2) <
      byteLength k.line.toList - k.latest.stop := by
  have hne : Text.dropBytes k.latest.stop k.line.toList ≠ [] := by
    rw [← rest, h]
    exact List.cons_ne_nil c cs
  have hlt := Text.lt_byteLength_of_dropBytes hne
  obtain ⟨ds, _, htext, _⟩ := stretch_append c cs
  have hc := c.utf8Size_pos
  rw [htext, Text.byteLength_cons]
  omega

/-- The next answer, and the scanner behind it -/
def next (k : Scanner) : Option (Except Diagnostic Token) × Scanner :=
  match _h : k.rest with
  | [] => (none, k.past 0)
  | c :: cs =>
    let text := (stretch c cs).2
    let k' := k.past (byteLength text)
    match (stretch c cs).1 with
    | .blanks | .comment => k'.next
    | .token kind => (some (.ok ⟨kind, String.ofList text, k'.latest.shift k'.offset⟩), k')
    | .unknown c =>
      (some (.error ((Cause.unknownCharacter c).diagnostic (k'.latest.shift k'.offset))), k')
termination_by byteLength k.line.toList - k.latest.stop
decreasing_by exact past_shorter _h

theorem next_of_nil {k : Scanner} (h : k.rest = []) : k.next = (none, k.past 0) := by
  rw [next]
  split
  · rfl
  · rename_i hrest
    rw [h] at hrest
    cases hrest

theorem next_of_cons {k : Scanner} {c : Char} {cs : List Char} (h : k.rest = c :: cs) :
    k.next =
      let text := (stretch c cs).2
      let k' := k.past (byteLength text)
      match (stretch c cs).1 with
      | .blanks | .comment => k'.next
      | .token kind => (some (.ok ⟨kind, String.ofList text, k'.latest.shift k'.offset⟩), k')
      | .unknown c =>
        (some (.error ((Cause.unknownCharacter c).diagnostic (k'.latest.shift k'.offset))),
          k') := by
  rw [next]
  split
  · rename_i hrest
    rw [h] at hrest
    cases hrest
  · rename_i hrest
    rw [h] at hrest
    cases hrest
    rfl

/-! ## Cursors behind scanners -/

/-- The cursor has what is behind the latest stretch of the scanner, and the place where that is -/
structure Follows (k : Scanner) (l : Cursor) : Prop where
  split : ∃ before, k.line.toList = before ++ l.rest ∧ k.latest.stop = byteLength before
  offset : l.offset = k.offset + k.latest.stop

namespace Follows

variable {k : Scanner} {l : Cursor}

theorem rest_eq (h : k.Follows l) : k.rest = l.rest := by
  obtain ⟨before, hline, hstop⟩ := h.split
  rw [rest, hline, hstop, Text.dropBytes_append]

theorem remainder_eq (h : k.Follows l) : k.remainder = (String.ofList l.rest, l.span) := by
  rw [remainder, h.rest_eq, ← h.offset]
  rfl

/-- Behind a piece of what is left -/
theorem past (h : k.Follows l) {text behind : List Char} (hl : l.rest = text ++ behind) :
    (k.past (byteLength text)).Follows ⟨behind, l.offset + byteLength text⟩ := by
  obtain ⟨before, hline, hstop⟩ := h.split
  refine ⟨⟨before ++ text, ?_, ?_⟩, ?_⟩
  · rw [List.append_assoc, ← hl]
    exact hline
  · rw [Text.byteLength_append, ← hstop]
    rfl
  · rw [h.offset, Nat.add_assoc]
    rfl

theorem start (line : String) (offset : Nat) :
    (Scanner.start line offset).Follows (.start line offset) :=
  ⟨⟨[], rfl, rfl⟩, rfl⟩

end Follows

end Scanner

/-! ## Gaps, stretch by stretch -/

namespace Cursor

/-- What is found is found behind the gap -/
theorem next_congr {k l : Cursor} (h : k.skip = l.skip) : k.next = l.next := by
  rw [next, next, h]

theorem next_append_of_blank {blanks : List Char} (hb : Blank blanks) (rest : List Char) (n : Nat) :
    (Cursor.mk (blanks ++ rest) n).next = (Cursor.mk rest (n + byteLength blanks)).next := by
  have hgap : gap (blanks ++ rest) = blanks ++ gap rest := by
    rw [gap, gap, List.takeWhile_append_of_pos hb, List.dropWhile_append_of_pos hb,
      List.append_assoc]
  apply next_congr
  rw [skip, skip, skip_append_of_blank hb, hgap, Text.byteLength_append, Nat.add_assoc]

/-- There is no gap before a character that starts none -/
theorem skip_of_head {rest : List Char} (h : ∀ c ∈ rest.head?, isBlank c = false ∧ c ≠ ';')
    (n : Nat) : (Cursor.mk rest n).skip = ⟨rest, n⟩ := by
  cases rest with
  | nil => rfl
  | cons c cs =>
    obtain ⟨hc, hsemi⟩ := h c rfl
    simp [skip, Token.skip, gap, hc, hsemi]

theorem next_of_comment_append (ds : List Char) (n : Nat) :
    (Cursor.mk (';' :: ds) n).next =
      (Cursor.mk (ds.dropWhile (· != '\n'))
        (n + byteLength (';' :: ds.takeWhile (· != '\n')))).next := by
  have hstop : ∀ c ∈ (ds.dropWhile (· != '\n')).head?, isBlank c = false ∧ c ≠ ';' := by
    intro c hc
    have hnewline : c = '\n' := by simpa using stop_dropWhile c hc
    subst hnewline
    exact ⟨by decide, by decide⟩
  apply next_congr
  rw [skip_of_head hstop]
  rfl

/-- A cursor goes through a gap stretch by stretch, and finds the first that is in no gap -/
theorem next_stretch (c : Char) (cs : List Char) (n : Nat) :
    ∃ behind, c :: cs = (stretch c cs).2 ++ behind ∧
      (Cursor.mk (c :: cs) n).next =
        let text := (stretch c cs).2
        let k' : Cursor := ⟨behind, n + byteLength text⟩
        match (stretch c cs).1 with
        | .blanks | .comment => k'.next
        | .token kind => (some (.ok ⟨kind, String.ofList text, ⟨n, k'.offset⟩⟩), k')
        | .unknown c =>
          (some (.error ((Cause.unknownCharacter c).diagnostic (some ⟨n, k'.offset⟩))), k') := by
  rw [stretch]
  split
  · rename_i hblank
    have hsplit : c :: cs = (c :: cs.takeWhile isBlank) ++ cs.dropWhile isBlank := by
      rw [List.cons_append, List.takeWhile_append_dropWhile]
    have hblanks : Blank (c :: cs.takeWhile isBlank) :=
      List.forall_mem_cons.2 ⟨hblank, fun _ => List.mem_takeWhile_imp⟩
    refine ⟨cs.dropWhile isBlank, hsplit, ?_⟩
    rw [hsplit]
    exact next_append_of_blank hblanks _ n
  split
  · rename_i hsemi
    subst hsemi
    refine ⟨cs.dropWhile (· != '\n'), ?_, next_of_comment_append cs n⟩
    rw [List.cons_append, List.takeWhile_append_dropWhile]
  · rename_i hblank hsemi
    have hhead : ∀ d ∈ (c :: cs).head?, isBlank d = false ∧ d ≠ ';' := by
      rintro d ⟨⟩
      exact ⟨Bool.eq_false_iff.2 hblank, hsemi⟩
    rw [next, skip_of_head hhead]
    cases hkind : (munch c cs).kind? with
    | some kind => exact ⟨(munch c cs).rest, (munch_append c cs).symm, by simp only [hkind]⟩
    | none => exact ⟨(munch c cs).rest, (munch_append c cs).symm, by simp only [hkind]⟩

end Cursor

/-! ## Calls -/

/-- The answers to some calls, and the state behind the last of them -/
def calls {σ α : Type} (next : σ → α × σ) : Nat → σ → List α × σ
  | 0, s => ([], s)
  | n + 1, s =>
    let later := calls next n (next s).2
    ((next s).1 :: later.1, later.2)

namespace Scanner.Follows

variable {k : Scanner} {l : Cursor}

/-- The first stretch of what is left, for both -/
theorem next_stretch (h : k.Follows l) {c : Char} {cs : List Char} (hrest : k.rest = c :: cs) :
    ∃ l' : Cursor, (k.past (byteLength (stretch c cs).2)).Follows l' ∧
      l.next =
        match (stretch c cs).1 with
        | .blanks | .comment => l'.next
        | .token kind =>
          (some (.ok ⟨kind, String.ofList (stretch c cs).2, ⟨l.offset, l'.offset⟩⟩), l')
        | .unknown c =>
          let s : Span := ⟨l.offset, l'.offset⟩
          (some (.error ((Cause.unknownCharacter c).diagnostic (some s))), l') := by
  obtain ⟨behind, hsplit, hnext⟩ := Cursor.next_stretch c cs l.offset
  have hl : l.rest = c :: cs := h.rest_eq.symm.trans hrest
  refine ⟨⟨behind, _⟩, h.past (hl.trans hsplit), ?_⟩
  rw [← hnext, ← hl]

/-- The bounds of the latest stretch, in bytes of the source -/
theorem shift_eq (h : k.Follows l) {n : Nat} {l' : Cursor} (h' : (k.past n).Follows l') :
    (k.past n).latest.shift (k.past n).offset = ⟨l.offset, l'.offset⟩ := by
  rw [h.offset, h'.offset, Span.shift]
  exact congrArg₂ Span.mk (Nat.add_comm _ _) (Nat.add_comm _ _)

/-- The scanner and the cursor behind it give the same answer -/
theorem next (h : k.Follows l) : k.next.1 = l.next.1 ∧ k.next.2.Follows l.next.2 := by
  -- on what is left to scan: a stretch leaves less of it, and the cursor takes a gap at once
  induction hn : byteLength k.line.toList - k.latest.stop using Nat.strongRecOn
    generalizing k l with
  | _ n ih =>
    subst hn
    match hrest : k.rest with
    | [] =>
      have hl : l.rest = [] ++ [] := h.rest_eq.symm.trans hrest
      have hnext : l.next = (none, ⟨[], l.offset⟩) := by
        rw [Cursor.next, Cursor.skip, hl]
        rfl
      rw [next_of_nil hrest, hnext]
      exact ⟨rfl, h.past hl⟩
    | c :: cs =>
      obtain ⟨l', hpast, hnext⟩ := h.next_stretch hrest
      have hspan := h.shift_eq hpast
      have hshorter := past_shorter hrest
      rw [next_of_cons hrest, hnext]
      cases (stretch c cs).1 with
      | blanks => exact ih _ hshorter hpast rfl
      | comment => exact ih _ hshorter hpast rfl
      | token kind => exact ⟨by rw [← hspan], hpast⟩
      | unknown d => exact ⟨by rw [← hspan], hpast⟩

/-- They do so from call to call -/
theorem calls (h : k.Follows l) (n : Nat) :
    (calls Scanner.next n k).1 = (calls Cursor.next n l).1 ∧
      (calls Scanner.next n k).2.Follows (calls Cursor.next n l).2 := by
  induction n generalizing k l with
  | zero => exact ⟨rfl, h⟩
  | succ n ih =>
    obtain ⟨hanswer, hnext⟩ := h.next
    obtain ⟨hlater, hbehind⟩ := ih hnext
    exact ⟨congrArg₂ List.cons hanswer hlater, hbehind⟩

end Scanner.Follows

namespace Cursor

theorem start_ofList (cs : List Char) (n : Nat) : start (String.ofList cs) n = ⟨cs, n⟩ := by
  rw [start, String.toList_ofList]

/-- The span of an answer ends at the cursor behind it -/
theorem stop_of_next {k k' : Cursor} {a : Except Diagnostic Token} (h : k.next = (some a, k')) :
    ∀ s ∈ answerSpan a, s.stop = k'.offset := by
  rw [next] at h
  split at h
  · cases h
  · rename_i c cs _
    cases h
    cases (munch c cs).kind? with
    | some kind =>
      rintro s ⟨⟩
      rfl
    | none =>
      rintro s ⟨⟩
      rfl

theorem leads_calls (n : Nat) (k : Cursor) : k.Leads (calls next n k).2 := by
  induction n generalizing k with
  | zero => exact .refl k
  | succ n ih => exact (leads_next rfl).trans (ih _)

/-- No answer is about what is behind the last of them -/
theorem stop_of_calls (n : Nat) (k : Cursor) :
    ∀ a, some a ∈ (calls next n k).1 →
      ∀ s ∈ answerSpan a, s.stop ≤ (calls next n k).2.offset := by
  induction n generalizing k with
  | zero =>
    intro a ha
    cases ha
  | succ n ih =>
    intro a ha
    rcases List.mem_cons.1 ha with hfirst | hlater
    · intro s hs
      have hnext : k.next = (some a, k.next.2) := Prod.ext hfirst.symm rfl
      obtain ⟨_, _, hoffset⟩ := leads_calls n k.next.2
      have hstop := stop_of_next hnext s hs
      show s.stop ≤ (calls next n k.next.2).2.offset
      omega
    · exact ih k.next.2 a hlater

/-- The tokens of some calls are the first of those that are left -/
theorem tokens_of_calls (n : Nat) (k : Cursor) :
    ∀ ts : List Token, (calls next n k).1 = ts.map (fun t => some (.ok t)) →
      k.tokens = (calls next n k).2.tokens.map (ts ++ ·) := by
  induction n generalizing k with
  | zero =>
    intro ts h
    cases List.map_eq_nil_iff.1 h.symm
    exact (congrFun Except.map_id _).symm
  | succ n ih =>
    intro ts h
    cases ts with
    | nil => cases h
    | cons t ts =>
      obtain ⟨hfirst, hlater⟩ := List.cons.inj h
      have hnext : k.next = (some (.ok t), k.next.2) := Prod.ext hfirst rfl
      rw [tokens_of_ok hnext, ih k.next.2 ts hlater]
      show _ = Except.map _ (calls next n k.next.2).2.tokens
      cases (calls next n k.next.2).2.tokens with
      | error d => rfl
      | ok us => rfl

end Cursor

/-- A scanner that is stopped after some calls, be they answered with tokens, with errors or with
nothing, has not come to less of the line than its answers are about.  What it has left is a piece
of the line at its end, and a scanner on that piece alone answers as it would have, and so does the
cursor there.  If all the answers were tokens, these are the first of the line, and the others of
the line are those of the piece; there is an error among these exactly if there is one on the line,
and it is the same -/
theorem resume_exact (line : String) (offset n : Nat) :
    ∃ answers k before rest, calls Scanner.next n (.start line offset) = (answers, k) ∧
      line.toList = before ++ rest ∧
      k.remainder = (String.ofList rest,
        ⟨offset + byteLength before, offset + byteLength line.toList⟩) ∧
      (∀ a, some a ∈ answers → ∀ s ∈ answerSpan a, s.stop ≤ offset + byteLength before) ∧
      (∀ m,
        let stopped := calls Scanner.next m k
        let fresh := calls Scanner.next m
          (.start (String.ofList rest) (offset + byteLength before))
        stopped.1 = fresh.1 ∧ stopped.2.remainder = fresh.2.remainder) ∧
      calls Cursor.next n (.start line offset) =
        (answers, .start (String.ofList rest) (offset + byteLength before)) ∧
      ∀ ts : List Token, answers = ts.map (fun t => some (.ok t)) →
        lex line offset =
          (lex (String.ofList rest) (offset + byteLength before)).map (ts ++ ·) := by
  obtain ⟨hanswers, hfollows⟩ := (Scanner.Follows.start line offset).calls n
  obtain ⟨before, hline, hoffset⟩ := Cursor.leads_calls n (.start line offset)
  have hstop := Cursor.stop_of_calls n (.start line offset)
  have htokens := Cursor.tokens_of_calls n (.start line offset)
  generalize hcalls : calls Cursor.next n (.start line offset) = behind at *
  obtain ⟨answers, rest, place⟩ := behind
  change line.toList = before ++ rest at hline
  change place = offset + byteLength before at hoffset
  subst hoffset
  have hrest := Cursor.start_ofList rest (offset + byteLength before)
  refine ⟨answers, _, before, rest, Prod.ext hanswers rfl, hline, ?_, hstop, ?_, ?_, ?_⟩
  · rw [hfollows.remainder_eq, Cursor.span, Cursor.stop, hline, Text.byteLength_append,
      Nat.add_assoc]
  · intro m
    obtain ⟨hstopped, hfollows⟩ := hfollows.calls m
    obtain ⟨hfresh, hfollows'⟩ :=
      (Scanner.Follows.start (String.ofList rest) (offset + byteLength before)).calls m
    rw [hrest] at hfresh hfollows'
    exact ⟨hstopped.trans hfresh.symm, hfollows.remainder_eq.trans hfollows'.remainder_eq.symm⟩
  · rw [hrest]
  · intro ts hts
    rw [lex, lex, hrest]
    exact htokens ts hts

/-- A scanner that is stopped behind the opcode of a message, before its label -/
theorem resume_exact_opcode :
    ∃ t k, calls Scanner.next 1 (.start "msg msg:é" 3) = ([some (.ok t)], k) ∧
      t = ⟨.identifier, "msg", ⟨3, 6⟩⟩ ∧ k.remainder = (" msg:é", ⟨6, 13⟩) ∧
      lex "msg msg:é" 3 = (lex " msg:é" 6).map ([t] ++ ·) := by
  obtain ⟨answers, k, before, rest, hcalls, hline, hremainder, _, _, hcursor, htokens⟩ :=
    resume_exact "msg msg:é" 3 1
  have hfound : calls Cursor.next 1 (.start "msg msg:é" 3) =
      ([some (.ok ⟨.identifier, "msg", ⟨3, 6⟩⟩)], .start " msg:é" 6) := by decide
  obtain ⟨rfl, hstart⟩ := Prod.mk.inj (hcursor.symm.trans hfound)
  rw [Cursor.start_ofList] at hstart
  obtain ⟨rfl, hplace⟩ := Cursor.mk.inj hstart
  rw [String.ofList_toList, hplace] at hremainder htokens
  exact ⟨_, k, hcalls, rfl, hremainder, htokens [_] rfl⟩

end RegisterMachine.Token
