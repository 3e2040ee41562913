import RegisterMachine.Line
import RegisterMachine.Proofs.Line.Arguments
import RegisterMachine.Proofs.Template.Comment
import RegisterMachine.Proofs.Token.Place

/-!
# `RegisterMachine.Proofs.Line.Grammar` — the lines that say something

A line says an instruction in one of two ways: its tokens are the form of the
instruction (`Line.Spells`), or it opens with `msg` (`Line.Opens`) and what is
left behind is a template.  The reader looks at the first token to know which,
and then at the template: a lone colon makes the line the label `msg`, which is
spelled like any other label.

    tokens                                instruction (`Instruction.Form`)
    none                                  comment
    identifier, colon                     the label, whatever the identifier
    a mnemonic and its arguments          that instruction

**Proved here.**

    a line that does not open with msg is read as what it spells    (`parse_of_not_opens`)
    a line that does is a template, or the label                    (`parse_of_opens`)
    so a line is read as what it spells or as its template          (`parse_eq_ok_iff`)
    a line that is not read is blamed for one of its spans          (`blames_parse`)
-/

namespace RegisterMachine

open Token (Shape Cursor Renders)

/-- The tokens that an instruction is written with -/
inductive Instruction.Form : Instruction → List Shape → Prop
  | comment : Form .comment []
  | label (name : String) : Form (.label name) [(.identifier, name), (.colon, ":")]
  | mnemonic {m : Mnemonic} {i : Instruction} {ws : List Shape} :
      m.Takes i ws → Form i ((.identifier, m.name) :: ws)

namespace Mnemonic

theorem ofName?_name (m : Mnemonic) : ofName? m.name = some m := by
  have h : ∀ m ∈ all, ofName? m.name = some m := by decide
  exact h m m.mem_all

theorem name_of_ofName? {s : String} {m : Mnemonic} (h : ofName? s = some m) : m.name = s := by
  have hm := List.find?_some h
  exact beq_iff_eq.1 hm

theorem ofName?_eq_some_iff {s : String} {m : Mnemonic} : ofName? s = some m ↔ m.name = s := by
  constructor
  · exact name_of_ofName?
  · rintro rfl
    exact ofName?_name m

theorem name_ne_msg (m : Mnemonic) : m.name ≠ "msg" := by
  intro h
  have hnone : ofName? "msg" = none := by decide
  rw [ofName?_eq_some_iff.2 h] at hnone
  cases hnone

theorem Takes.ne_colon {m : Mnemonic} {i : Instruction} {ws : List Shape} (h : m.Takes i ws) :
    ws ≠ [(.colon, ":")] := by
  rintro rfl
  cases h

end Mnemonic

namespace Instruction.Form

theorem kind_eq {i : Instruction} {w : Shape} {ws : List Shape} (h : i.Form (w :: ws)) :
    w.1 = .identifier := by
  cases h with
  | label | mnemonic => rfl

theorem cons_iff {i : Instruction} {name : String} {ws : List Shape} :
    i.Form ((.identifier, name) :: ws) ↔
      i = .label name ∧ ws = [(.colon, ":")] ∨ ∃ m : Mnemonic, m.name = name ∧ m.Takes i ws := by
  constructor
  · intro h
    generalize hvs : ((.identifier, name) :: ws : List Shape) = vs at h
    cases h with
    | comment => cases hvs
    | label =>
      cases hvs
      exact .inl ⟨rfl, rfl⟩
    | mnemonic h =>
      cases hvs
      exact .inr ⟨_, rfl, h⟩
  · rintro (⟨rfl, rfl⟩ | ⟨m, rfl, h⟩)
    · exact .label name
    · exact .mnemonic h

end Instruction.Form

namespace Line

/-- The cursor at the start of the line -/
def start (l : Line) : Cursor :=
  .start l.text l.offset

/-- The tokens of the line, as their shapes -/
def Has (l : Line) (ws : List Shape) : Prop :=
  ∃ ts, Token.lex l.text l.offset = .ok ts ∧ ts.map Token.shape = ws

/-- The tokens of the line are the form of an instruction -/
def Spells (l : Line) (i : Instruction) : Prop :=
  ∃ ws, l.Has ws ∧ i.Form ws

/-- The first token of the line is `msg`, and the cursor stands behind it -/
def Opens (l : Line) (k : Cursor) : Prop :=
  ∃ t, l.start.next = (some (.ok t), k) ∧ t.shape = (.identifier, "msg")

/-- There is a fault, and it is the parser's and about a span of the line -/
def Refused (l : Line) : Prop :=
  ∃ d, l.parse = .error d ∧ l.start.Blames d

theorem has_iff_renders {l : Line} {ws : List Shape} : l.Has ws ↔ Renders ws l.text.toList :=
  Cursor.tokens_iff_renders

/-! ## Lines whose tokens have been scanned -/

theorem ofTokens_eq_ok_iff {first : Token} {rest : List Token} {i : Instruction}
    (hfirst : first.kind = .identifier) (hm : ∀ t ∈ rest, t.kind.Matches t.text.toList) :
    ofTokens first rest = .ok i ↔ i.Form (first.shape :: rest.map Token.shape) := by
  rw [show first.shape = (.identifier, first.text) by rw [Token.shape, hfirst],
    Instruction.Form.cons_iff, ofTokens]
  split
  · rename_i hkinds
    -- a lone colon makes a label, whatever the identifier
    have hcolon : rest.map Token.shape = [(.colon, ":")] := by
      obtain ⟨t, rfl, ht⟩ := List.map_eq_singleton_iff.1 hkinds
      have htext : t.text.toList = [':'] := by
        have := hm t List.mem_cons_self
        rwa [ht] at this
      rw [List.map_singleton, Token.shape, ht, ← String.ofList_toList (s := t.text), htext]
    constructor
    · intro h
      cases h
      exact .inl ⟨rfl, hcolon⟩
    · rintro (⟨rfl, _⟩ | ⟨m, _, h⟩)
      · rfl
      · exact absurd hcolon h.ne_colon
  · rename_i hkinds
    have hcolon : rest.map Token.shape ≠ [(.colon, ":")] := by
      intro h
      obtain ⟨t, rfl, ht⟩ := List.map_eq_singleton_iff.1 h
      exact hkinds (congrArg (fun w : Shape => [w.1]) ht)
    split
    · rename_i m hname
      rw [Arguments.readAll_eq_ok_iff (Arguments.accepts_read m) hm]
      constructor
      · intro h
        exact .inr ⟨m, Mnemonic.name_of_ofName? hname, h⟩
      · rintro (⟨_, h⟩ | ⟨m', hname', h⟩)
        · exact absurd h hcolon
        · rw [Mnemonic.ofName?_eq_some_iff.2 hname'] at hname
          cases hname
          exact h
    · rename_i hname
      constructor
      · intro h
        cases h
      · rintro (⟨_, h⟩ | ⟨m', hname', _⟩)
        · exact absurd h hcolon
        · rw [Mnemonic.ofName?_eq_some_iff.2 hname'] at hname
          cases hname

theorem fault_of_ofTokens {first : Token} {rest : List Token} {d : Diagnostic}
    (h : ofTokens first rest = .error d) :
    d.kind = .parse ∧ ∃ s ∈ first.span :: rest.map Token.span, d.span = some s := by
  rw [ofTokens] at h
  split at h
  · cases h
  · split at h
    · exact Arguments.fault_of_readAll (Arguments.accepts_read _) h
    · cases h
      exact ⟨rfl, first.span, List.mem_cons_self, rfl⟩

theorem tokens_matches {k : Cursor} {ts : List Token} (h : k.tokens = .ok ts) :
    ∀ t ∈ ts, t.kind.Matches t.text.toList := by
  intro t ht
  exact (Cursor.renders_of_tokens h).matches t.shape (List.mem_map_of_mem ht)

variable {l : Line} {k : Cursor} {first : Token}

/-- A line whose first token is known has the tokens that are left behind it -/
theorem has_cons_iff (h : l.start.next = (some (.ok first), k)) {w : Shape} {ws : List Shape} :
    l.Has (w :: ws) ↔
      first.shape = w ∧ ∃ ts, k.tokens = .ok ts ∧ ts.map Token.shape = ws := by
  have hlex : Token.lex l.text l.offset = k.tokens >>= fun ts => .ok (first :: ts) :=
    Cursor.tokens_of_ok h
  rw [Has, hlex]
  constructor
  · rintro ⟨us, hus, hws⟩
    obtain ⟨ts, hts, hus⟩ := Except.bind_eq_ok_iff.1 hus
    cases hus
    obtain ⟨hw, hws⟩ := List.cons.inj hws
    exact ⟨hw, ts, hts, hws⟩
  · rintro ⟨rfl, ts, hts, rfl⟩
    exact ⟨first :: ts, Except.bind_eq_ok_iff.2 ⟨ts, hts, rfl⟩, rfl⟩

theorem spells_iff (h : l.start.next = (some (.ok first), k)) {i : Instruction} :
    l.Spells i ↔ ∃ ts, k.tokens = .ok ts ∧ i.Form (first.shape :: ts.map Token.shape) := by
  constructor
  · rintro ⟨_ | ⟨w, ws⟩, hhas, hform⟩
    · obtain ⟨us, hus, hnil⟩ := hhas
      rw [show Token.lex l.text l.offset = _ from Cursor.tokens_of_ok h] at hus
      obtain ⟨_, _, hus⟩ := Except.bind_eq_ok_iff.1 hus
      cases hus
      cases hnil
    · obtain ⟨rfl, ts, hts, rfl⟩ := (has_cons_iff h).1 hhas
      exact ⟨ts, hts, hform⟩
  · rintro ⟨ts, hts, hform⟩
    exact ⟨_, (has_cons_iff h).2 ⟨rfl, ts, hts, rfl⟩, hform⟩

/-- Reading all tokens of a line finds the instruction that they spell -/
theorem tokens_bind_eq_ok_iff (h : l.start.next = (some (.ok first), k))
    (hfirst : first.kind = .identifier) {i : Instruction} :
    (k.tokens >>= ofTokens first) = .ok i ↔ l.Spells i := by
  rw [Except.bind_eq_ok_iff, spells_iff h]
  refine exists_congr fun ts => and_congr_right fun hts => ?_
  exact ofTokens_eq_ok_iff hfirst (tokens_matches hts)

/-! ## The first token -/

theorem parse_of_next_none (h : l.start.next = (none, k)) : l.parse = .ok .comment := by
  rw [parse, show Cursor.start _ _ = l.start from rfl, h]

theorem parse_of_next_error {d : Diagnostic} (h : l.start.next = (some (.error d), k)) :
    l.parse = .error d := by
  rw [parse, show Cursor.start _ _ = l.start from rfl, h]

theorem parse_of_next_ok (h : l.start.next = (some (.ok first), k)) :
    l.parse = ofFirst first k := by
  rw [parse, show Cursor.start _ _ = l.start from rfl, h]

/-! ## Lines that do not open with `msg` -/

theorem parse_of_not_opens (h : ∀ k, ¬ l.Opens k) {i : Instruction} :
    l.parse = .ok i ↔ l.Spells i := by
  rw [parse]
  split
  · rename_i k hnext
    have hlex : Token.lex l.text l.offset = .ok [] := Cursor.tokens_of_none hnext
    constructor
    · intro h
      cases h
      exact ⟨[], ⟨[], hlex, rfl⟩, .comment⟩
    · rintro ⟨_, ⟨ts, hts, rfl⟩, hform⟩
      rw [hlex] at hts
      cases hts
      cases hform
      rfl
  · rename_i d k hnext
    have hlex : Token.lex l.text l.offset = .error d := Cursor.tokens_of_error hnext
    constructor
    · intro h
      cases h
    · rintro ⟨_, ⟨ts, hts, _⟩, _⟩
      rw [hlex] at hts
      cases hts
  · rename_i first k hnext
    rw [ofFirst]
    split
    · rename_i hkind
      constructor
      · intro h
        cases h
      · intro hs
        obtain ⟨ts, _, hform⟩ := (spells_iff hnext).1 hs
        exact absurd hform.kind_eq hkind
    · rename_i hkind
      have hkind : first.kind = .identifier := Decidable.not_not.1 hkind
      have hmsg : first.text ≠ "msg" := by
        intro hmsg
        refine h k ⟨first, hnext, ?_⟩
        rw [Token.shape, hkind, hmsg]
      rw [if_neg fun hand => hmsg hand.1]
      exact tokens_bind_eq_ok_iff hnext hkind

/-! ## Lines that open with `msg` -/

theorem white_of_blank {cs : List Char} (h : Token.Blank cs) : Text.White cs := by
  intro c hc
  rcases Token.isBlank_iff.1 (h c hc) with rfl | rfl | rfl <;> decide

theorem template_append_white {blanks cs : List Char} (h : Text.White blanks) :
    template (blanks ++ cs) = template cs := by
  have htrim := Text.trim_append h .nil (Template.uncommented cs)
  rw [template, Template.uncommented, Template.uncommentedFrom_append (.of_white h)]
  rw [List.append_nil] at htrim
  exact htrim

/-- The template of a text that has the token colon and no other -/
theorem template_of_renders_colon {cs : List Char} (h : Renders [(.colon, ":")] cs) :
    template cs = [':'] := by
  cases h with
  | cons hblank _ _ hrest =>
    cases hrest with
    | @nil blanks comment hblanks hcomment =>
      have hwhite := white_of_blank hblanks
      have hcut : Template.uncommented (":".toList ++ (blanks ++ comment)) = [':'] ++ blanks := by
        have hplain : Template.Plain (':' :: blanks) := by
          intro c hc
          rcases List.mem_cons.1 hc with rfl | hc
          · decide
          · exact Template.Plain.of_white hwhite c hc
        show Template.uncommentedFrom false ((':' :: blanks) ++ comment) = _
        rw [Template.uncommentedFrom_append hplain]
        rcases hcomment with rfl | ⟨ds, rfl, _⟩ <;> simp [Template.uncommentedFrom]
      rw [template_append_white (white_of_blank hblank), template, hcut]
      exact Text.trim_append .nil hwhite [':']

/-- A line that opens with `msg` has these tokens, or there is more on it than a colon -/
theorem template_of_has (h : l.Opens k) (hhas : l.Has [(.identifier, "msg"), (.colon, ":")]) :
    template k.rest = [':'] := by
  obtain ⟨first, hnext, _⟩ := h
  obtain ⟨_, ts, hts, hws⟩ := (has_cons_iff hnext).1 hhas
  exact template_of_renders_colon (Cursor.tokens_iff_renders.1 ⟨ts, hts, hws⟩)

theorem spells_of_opens (h : l.Opens k) {i : Instruction} :
    l.Spells i ↔ i = .label "msg" ∧ l.Has [(.identifier, "msg"), (.colon, ":")] := by
  obtain ⟨first, hnext, hshape⟩ := h
  rw [spells_iff hnext, has_cons_iff hnext, hshape]
  constructor
  · rintro ⟨ts, hts, hform⟩
    rcases Instruction.Form.cons_iff.1 hform with ⟨rfl, hcolon⟩ | ⟨m, hname, _⟩
    · exact ⟨rfl, rfl, ts, hts, hcolon⟩
    · exact absurd hname m.name_ne_msg
  · rintro ⟨rfl, _, ts, hts, hcolon⟩
    exact ⟨ts, hts, Instruction.Form.cons_iff.2 (.inl ⟨rfl, hcolon⟩)⟩

theorem parse_of_opens (h : l.Opens k) {i : Instruction} :
    l.parse = .ok i ↔
      (∃ t : String, i = .message t ∧ t.toList = template k.rest ∧ t ≠ "" ∧ t ≠ ":") ∨
        i = .label "msg" ∧ l.Has [(.identifier, "msg"), (.colon, ":")] := by
  have hspells : l.Spells i ↔ _ := spells_of_opens h
  have hhas := template_of_has h
  obtain ⟨first, hnext, hshape⟩ := h
  obtain ⟨hkind, htext⟩ := Prod.mk.inj hshape
  rw [parse_of_next_ok hnext, ofFirst, if_neg (Decidable.not_not.2 hkind)]
  by_cases hcolon : template k.rest = [':']
  · rw [if_neg fun hand => hand.2 hcolon, tokens_bind_eq_ok_iff hnext hkind, hspells]
    constructor
    · exact .inr
    · rintro (⟨t, _, ht, _, hne⟩ | h)
      · exact absurd (String.toList_inj.1 (show t.toList = ":".toList from ht.trans hcolon)) hne
      · exact h
  · rw [if_pos ⟨htext, hcolon⟩]
    split
    · rename_i hnil
      constructor
      · intro h
        cases h
      · rintro (⟨t, _, ht, hne, _⟩ | ⟨_, h⟩)
        · exact absurd (String.toList_inj.1 (show t.toList = "".toList from ht.trans hnil)) hne
        · exact absurd (hhas h) hcolon
    · rename_i hnil
      constructor
      · intro h
        cases h
        refine .inl ⟨_, rfl, String.toList_ofList, ?_, ?_⟩
        · intro h
          exact hnil (String.ofList_injective h)
        · intro h
          exact hcolon (String.ofList_injective h)
      · rintro (⟨t, rfl, ht, _⟩ | ⟨_, h⟩)
        · rw [← ht, String.ofList_toList]
        · exact absurd (hhas h) hcolon

/-- What a line says, by its tokens or by its template -/
theorem parse_eq_ok_iff {i : Instruction} :
    l.parse = .ok i ↔ l.Spells i ∨ ∃ (k : Cursor) (t : String), l.Opens k ∧ i = .message t ∧
      t.toList = template k.rest ∧ t ≠ "" ∧ t ≠ ":" := by
  by_cases hopens : ∃ k, l.Opens k
  · obtain ⟨k, hk⟩ := hopens
    rw [parse_of_opens hk, spells_of_opens hk]
    constructor
    · rintro (⟨t, ht⟩ | h)
      · exact .inr ⟨k, t, hk, ht⟩
      · exact .inl h
    · rintro (h | ⟨k', t, hk', ht⟩)
      · exact .inr h
      · -- the cursor behind the first token is the same one
        obtain ⟨_, hnext, _⟩ := hk
        obtain ⟨_, hnext', _⟩ := hk'
        rw [hnext] at hnext'
        cases hnext'
        exact .inl ⟨t, ht⟩
  · rw [parse_of_not_opens fun k hk => hopens ⟨k, hk⟩]
    constructor
    · exact .inl
    · rintro (h | ⟨k, _, hk, _⟩)
      · exact h
      · exact absurd ⟨k, hk⟩ hopens

/-! ## Lines that are not read -/

theorem blames_ofTokens {d : Diagnostic} (hnext : l.start.next = (some (.ok first), k))
    (h : (k.tokens >>= ofTokens first) = .error d) : l.start.Blames d := by
  have hleads := Cursor.leads_next hnext
  obtain ⟨hcovers, hblames⟩ := Cursor.covers_tokens k
  rcases Except.bind_eq_error_iff.1 h with h | ⟨ts, hts, h⟩
  · exact hleads.blames (hblames d h)
  · obtain ⟨hkind, s, hs, hd⟩ := fault_of_ofTokens h
    refine ⟨hkind, s, hd, ?_⟩
    rcases List.mem_cons.1 hs with rfl | hs
    · exact Cursor.covers_of_next hnext
    · obtain ⟨t, ht, rfl⟩ := List.mem_map.1 hs
      exact hleads.covers (hcovers ts hts t ht)

/-- Every complaint about a line is about a span of it -/
theorem blames_parse {d : Diagnostic} (h : l.parse = .error d) : l.start.Blames d := by
  rw [parse] at h
  split at h
  · cases h
  · rename_i hnext
    cases h
    exact Cursor.blames_of_next hnext
  · rename_i first k hnext
    have hcovers : l.start.Covers first.span := Cursor.covers_of_next hnext
    rw [ofFirst] at h
    split at h
    · cases h
      exact ⟨rfl, first.span, rfl, hcovers⟩
    split at h
    · split at h
      · cases h
        exact ⟨rfl, _, rfl,
          hcovers.expand ((Cursor.leads_next hnext).covers (Cursor.covers_span k))⟩
      · cases h
    · exact blames_ofTokens hnext h

theorem refused_of_forall (h : ∀ i, l.parse ≠ .ok i) : l.Refused := by
  cases hparse : l.parse with
  | ok i => exact absurd hparse (h i)
  | error d => exact ⟨d, hparse, blames_parse hparse⟩

/-- The reader of lines reads those that say an instruction, and refuses all others -/
theorem parse_exact (l : Line) :
    ((∀ k, ¬ l.Opens k) →
      (∀ i, l.parse = .ok i ↔ l.Spells i) ∧ ((∀ i, ¬ l.Spells i) → l.Refused)) ∧
    ∀ k, l.Opens k →
      (∀ t : String, l.parse = .ok (.message t) ↔
        t.toList = template k.rest ∧ t ≠ "" ∧ t ≠ ":") ∧
      (l.parse = .ok (.label "msg") ↔ l.Has [(.identifier, "msg"), (.colon, ":")]) ∧
      ((template k.rest = [] ∨ template k.rest = [':']) →
        ¬ l.Has [(.identifier, "msg"), (.colon, ":")] → l.Refused) := by
  constructor
  · intro h
    refine ⟨fun i => parse_of_not_opens h, ?_⟩
    intro hno
    refine refused_of_forall ?_
    intro i hi
    exact hno i ((parse_of_not_opens h).1 hi)
  intro k h
  refine ⟨?_, ?_, ?_⟩
  · intro t
    rw [parse_of_opens h]
    constructor
    · rintro (⟨u, hu, ht⟩ | ⟨hi, _⟩)
      · cases hu
        exact ht
      · cases hi
    · intro ht
      exact .inl ⟨t, rfl, ht⟩
  · rw [parse_of_opens h]
    constructor
    · rintro (⟨u, hu, _⟩ | ⟨_, hhas⟩)
      · cases hu
      · exact hhas
    · intro hhas
      exact .inr ⟨rfl, hhas⟩
  · intro htemplate hhas
    refine refused_of_forall ?_
    intro i hi
    rcases (parse_of_opens h).1 hi with ⟨t, _, ht, hempty, hcolon⟩ | ⟨_, h⟩
    · rcases htemplate with hnil | hone
      · exact hempty (String.toList_inj.1 (show t.toList = "".toList from ht.trans hnil))
      · exact hcolon (String.toList_inj.1 (show t.toList = ":".toList from ht.trans hone))
    · exact hhas h

end Line

end RegisterMachine
