import RegisterMachine.Proofs.Decimal
import RegisterMachine.Proofs.Line.Grammar

/-!
# `RegisterMachine.Proofs.Line.RoundTrip` — written forms, and lines that say the same

Not every instruction can be written: a name can be any string, and a template
any text.  `Instruction.Writable` is what a written instruction keeps to.

    part        condition
    names       identifiers
    template    not empty, not a lone colon, nothing to trim off, no comment

Such an instruction is read back from its written form, wherever that stands
(`parse_text`), and what is read from any line is such an instruction
(`writable_of_parse`).  So the written form is one line that says the instruction
if there is any line at all that does.
-/

namespace RegisterMachine

open Token (Shape Cursor Kind Renders)

/-! ## Instructions that can be written -/

/-- A letter or an underscore, and letters, digits and underscores behind it -/
def Identifier (name : String) : Prop :=
  Kind.identifier.Matches name.toList

instance (name : String) : Decidable (Identifier name) :=
  match h : name.toList with
  | [] => isFalse (by rintro ⟨_, _, hcs, _⟩; rw [h] at hcs; cases hcs)
  | c :: ds =>
    decidable_of_iff
      (Token.startsIdentifier c = true ∧ ds.all Token.continuesIdentifier = true) (by
        rw [List.all_eq_true]
        constructor
        · intro hc
          exact ⟨c, ds, h, hc⟩
        · rintro ⟨_, _, hcs, hc⟩
          rw [h] at hcs
          cases hcs
          exact hc)

/-- A text that is the template of some line as it stands -/
structure Template.Bare (template : String) : Prop where
  nonempty : template ≠ ""
  no_colon : template ≠ ":"
  trimmed : Text.trim template.toList = template.toList
  no_comment : uncommented template.toList = template.toList

def Operand.names : Operand → List String
  | .literal _ => []
  | .register name => [name]

/-- The registers and labels that an instruction names -/
def Instruction.names : Instruction → List String
  | .comment | .ret | .halt | .message _ => []
  | .label name => [name]
  | .operate (.unary _) target => [target]
  | .operate (.binary _ source) target => target :: source.names
  | .compare left right => left.names ++ right.names
  | .jump _ target => [target]
  | .call target => [target]

structure Instruction.Writable (i : Instruction) : Prop where
  identifiers : ∀ name ∈ i.names, Identifier name
  bare : ∀ template, i = .message template → Template.Bare template

/-! ## Tokens of written forms -/

namespace Operand

theorem Form.names {o : Operand} {w : Shape} (h : o.Form w) :
    ∀ name ∈ o.names, (.identifier, name) = w := by
  cases h with
  | register name =>
    intro n hn
    rw [List.mem_singleton.1 hn]
  | literal => exact fun _ hn => nomatch hn

end Operand

namespace Instruction

/-- What an instruction names is among the tokens that it is written with -/
theorem Form.names {i : Instruction} {ws : List Shape} (h : i.Form ws) :
    ∀ name ∈ i.names, (.identifier, name) ∈ ws := by
  intro name hname
  cases h with
  | comment => cases hname
  | label =>
    rw [List.mem_singleton.1 hname]
    exact List.mem_cons_self
  | mnemonic h =>
    refine List.mem_cons_of_mem _ ?_
    cases h with
    | binary hsource =>
      rcases List.mem_cons.1 hname with rfl | hname
      · exact List.mem_cons_self
      · rw [hsource.names name hname]
        simp
    | compare hleft hright =>
      rcases List.mem_append.1 hname with hname | hname
      · rw [hleft.names name hname]
        exact List.mem_cons_self
      · rw [hright.names name hname]
        simp
    | unary | jump | call =>
      rw [List.mem_singleton.1 hname]
      exact List.mem_cons_self
    | ret | halt => cases hname

theorem Form.ne_message {i : Instruction} {ws : List Shape} (h : i.Form ws) (t : String) :
    i ≠ .message t := by
  rintro rfl
  cases h with
  | mnemonic h => cases h

end Instruction

namespace Token

theorem renders_nil : Renders [] [] :=
  show Renders [] ([] ++ []) from .nil .nil (.inl rfl)

theorem Renders.token {kind : Kind} {text : String} {ws : List Shape} {rest : List Char}
    (hm : kind.Matches text.toList) (he : kind.Ends rest) (hr : Renders ws rest) :
    Renders ((kind, text) :: ws) (text.toList ++ rest) :=
  show Renders _ ([] ++ (text.toList ++ rest)) from .cons .nil hm he hr

theorem Renders.last {kind : Kind} {text : String} (hm : kind.Matches text.toList) :
    Renders [(kind, text)] text.toList := by
  have h := Renders.token hm kind.ends_nil renders_nil
  rwa [List.append_nil] at h

theorem Renders.blank {ws : List Shape} {cs : List Char} (h : Renders ws cs) :
    Renders ws (' ' :: cs) := by
  have hblank : ∀ {blanks : List Char}, Blank blanks → Blank (' ' :: blanks) := by
    intro blanks hb c hc
    rcases List.mem_cons.1 hc with rfl | hc
    · decide
    · exact hb c hc
  cases h with
  | nil hb hcomment => exact .nil (hblank hb) hcomment
  | cons hb hm he hr => exact .cons (hblank hb) hm he hr

end Token

/-! ## Written forms -/

theorem Decimal.matches_ofInt (n : Int) : Kind.integer.Matches (ofInt n) := by
  cases n with
  | ofNat n =>
    obtain ⟨c, cs, hcs, hc, hdigits⟩ := ofNat_digits n
    exact ⟨c, cs, hcs, by simp [Token.startsInteger, hc], hdigits⟩
  | negSucc n =>
    obtain ⟨c, cs, hcs, hc, hdigits⟩ := ofNat_digits (n + 1)
    refine ⟨'-', c :: cs, congrArg ('-' :: ·) hcs, by simp [Token.startsInteger, hc], ?_⟩
    intro d hd
    rcases List.mem_cons.1 hd with rfl | hd
    · exact hc
    · exact hdigits d hd

theorem Operand.form_text {o : Operand} (h : ∀ name ∈ o.names, Identifier name) :
    ∃ kind : Kind, o.Form (kind, o.text) ∧ kind.Matches o.text.toList := by
  cases o with
  | literal value =>
    have htext : (Operand.literal value).text.toList = Decimal.ofInt value.toInt :=
      String.toList_ofList
    refine ⟨.integer, .literal (Arguments.read?_eq_some_iff.1 value.read?_text), ?_⟩
    rw [htext]
    exact Decimal.matches_ofInt value.toInt
  | register name => exact ⟨.identifier, .register name, h name List.mem_cons_self⟩

theorem Mnemonic.identifier_name (m : Mnemonic) : Identifier m.name := by
  have h : ∀ m ∈ all, Identifier m.name := by decide
  exact h m m.mem_all

/-- An opcode, a blank and what is behind it -/
theorem Mnemonic.renders (m : Mnemonic) {ws : List Shape} {rest : List Char}
    (h : Renders ws rest) : Renders ((.identifier, m.name) :: ws) (m.name.toList ++ ' ' :: rest) :=
  .token m.identifier_name (Kind.ends_cons _ (by decide) rest) h.blank

/-- A token, a comma, a blank and one more token -/
theorem Token.renders_pair {kind kind' : Kind} {text text' : String}
    (h : kind.Matches text.toList) (h' : kind'.Matches text'.toList) :
    Renders [(kind, text), (.comma, ","), (kind', text')]
      (text.toList ++ ',' :: ' ' :: text'.toList) := by
  have hcomma : Kind.comma.Matches ",".toList := rfl
  have hrest : Renders [(.comma, ","), (kind', text')] (",".toList ++ ' ' :: text'.toList) :=
    .token hcomma (fun _ _ => rfl) (Renders.last h').blank
  exact .token h (Kind.ends_cons _ (by decide) _) hrest

/-- The written form of an instruction other than a message has its tokens -/
theorem Instruction.form_text {i : Instruction} (h : ∀ name ∈ i.names, Identifier name)
    (hmessage : ∀ t, i ≠ .message t) : ∃ ws, i.Form ws ∧ Renders ws i.text.toList := by
  match i with
  | .comment =>
    refine ⟨[], .comment, ?_⟩
    show Renders [] ([] ++ [';'])
    exact .nil .nil (.inr ⟨[], rfl, List.not_mem_nil⟩)
  | .label name =>
    have hname : Identifier name := h name List.mem_cons_self
    have hmatches : Kind.colon.Matches ":".toList := rfl
    have hcolon : Renders [(.colon, ":")] [':'] := Renders.last hmatches
    refine ⟨_, .label name, ?_⟩
    have hrenders := Renders.token hname (Kind.ends_cons _ (by decide) []) hcolon
    simpa [Instruction.text] using hrenders
  | .operate (.unary op) target =>
    have htarget : Identifier target := h target List.mem_cons_self
    refine ⟨_, .mnemonic (m := .unary op) .unary, ?_⟩
    have hrenders := (Mnemonic.unary op).renders (Renders.last htarget)
    simpa [Instruction.text, Mnemonic.name] using hrenders
  | .operate (.binary op source) target =>
    have htarget : Identifier target := h target List.mem_cons_self
    obtain ⟨kind, hform, hsource⟩ :=
      Operand.form_text fun name hname => h name (List.mem_cons_of_mem _ hname)
    refine ⟨_, .mnemonic (m := .binary op) (.binary hform), ?_⟩
    have hrenders := (Mnemonic.binary op).renders (Token.renders_pair htarget hsource)
    simpa [Instruction.text, Mnemonic.name] using hrenders
  | .compare left right =>
    obtain ⟨kind, hleft, hl⟩ :=
      Operand.form_text fun name hname => h name (List.mem_append_left _ hname)
    obtain ⟨kind', hright, hr⟩ :=
      Operand.form_text fun name hname => h name (List.mem_append_right _ hname)
    refine ⟨_, .mnemonic (.compare hleft hright), ?_⟩
    have hrenders := Mnemonic.compare.renders (Token.renders_pair hl hr)
    simpa [Instruction.text, Mnemonic.name] using hrenders
  | .jump condition target =>
    have htarget : Identifier target := h target List.mem_cons_self
    refine ⟨_, .mnemonic (m := .jump condition) .jump, ?_⟩
    have hrenders := (Mnemonic.jump condition).renders (Renders.last htarget)
    simpa [Instruction.text, Mnemonic.name] using hrenders
  | .call target =>
    have htarget : Identifier target := h target List.mem_cons_self
    refine ⟨_, .mnemonic .call, ?_⟩
    have hrenders := Mnemonic.call.renders (Renders.last htarget)
    simpa [Instruction.text, Mnemonic.name] using hrenders
  | .ret => exact ⟨_, .mnemonic .ret, Renders.last (Mnemonic.ret.identifier_name)⟩
  | .halt => exact ⟨_, .mnemonic .halt, Renders.last (Mnemonic.halt.identifier_name)⟩
  | .message t => exact absurd rfl (hmessage t)

/-! ## Reading -/

namespace Line

/-- A text that starts with `msg` and a blank opens a line, wherever it stands -/
theorem opens_msg (t : String) (offset : Nat) :
    ∃ k, (⟨"msg " ++ t, offset⟩ : Line).Opens k ∧ k.rest = ' ' :: t.toList := by
  have hrest : (⟨"msg " ++ t, offset⟩ : Line).start.rest =
      [] ++ (['m', 's', 'g'] ++ ' ' :: t.toList) := by
    show ("msg " ++ t).toList = _
    rw [String.toList_append]
    rfl
  have hmsg : Kind.identifier.Matches ['m', 's', 'g'] :=
    show Identifier "msg" by decide
  obtain ⟨first, k, hnext, hshape, hk⟩ := Cursor.next_of_matches hrest (fun _ hc => nomatch hc)
    hmsg (Kind.ends_cons _ (by decide) _)
  exact ⟨k, ⟨first, hnext, hshape⟩, hk⟩

theorem parse_message {t : String} (h : Template.Bare t) (offset : Nat) :
    (⟨"msg " ++ t, offset⟩ : Line).parse = .ok (.message t) := by
  obtain ⟨k, hopens, hk⟩ := opens_msg t offset
  have hblank : Text.White [' '] := by
    intro c hc
    rw [List.mem_singleton.1 hc]
    decide
  have htemplate : template k.rest = t.toList := by
    rw [hk]
    calc template ([' '] ++ t.toList) = template t.toList := template_append_white hblank
      _ = Text.trim t.toList := by rw [template, h.no_comment]
      _ = t.toList := h.trimmed
  exact parse_eq_ok_iff.2
    (.inr ⟨k, t, hopens, rfl, htemplate.symm, h.nonempty, h.no_colon⟩)

/-- An instruction that can be written is read back, wherever it stands -/
theorem parse_text {i : Instruction} (h : i.Writable) (offset : Nat) :
    (⟨i.text, offset⟩ : Line).parse = .ok i := by
  by_cases hi : ∃ t, i = .message t
  · obtain ⟨t, rfl⟩ := hi
    exact parse_message (h.bare t rfl) offset
  · obtain ⟨ws, hform, hrenders⟩ :=
      Instruction.form_text h.identifiers fun t ht => hi ⟨t, ht⟩
    exact parse_eq_ok_iff.2 (.inl ⟨ws, has_iff_renders.2 hrenders, hform⟩)

/-- What is read from a line can be written -/
theorem writable_of_parse {l : Line} {i : Instruction} (h : l.parse = .ok i) : i.Writable := by
  rcases parse_eq_ok_iff.1 h with ⟨ws, hhas, hform⟩ | ⟨k, t, _, rfl, ht, hempty, hcolon⟩
  · constructor
    · intro name hname
      exact (has_iff_renders.1 hhas).matches _ (hform.names name hname)
    · intro t ht
      exact absurd ht (hform.ne_message t)
  · constructor
    · intro name hname
      cases hname
    · intro t' ht'
      cases ht'
      refine ⟨hempty, hcolon, ?_, ?_⟩
      · rw [ht]
        exact Text.trim_trim _
      · rw [ht]
        exact Template.uncommented_trim k.rest

/-! ## Newlines -/

theorem template_subset (cs : List Char) : template cs ⊆ cs := by
  obtain ⟨as, bs, hsplit, _, _⟩ := Text.trim_split (Template.uncommented cs)
  intro c hc
  refine (Template.uncommentedFrom_prefix false cs).subset ?_
  change c ∈ Template.uncommented cs
  rw [hsplit]
  exact List.mem_append_right as (List.mem_append_left bs hc)

/-- The written form of what one line says is one line -/
theorem no_newline_of_parse {l : Line} {i : Instruction} (h : l.parse = .ok i)
    (hl : '\n' ∉ l.text.toList) : '\n' ∉ i.text.toList := by
  rcases parse_eq_ok_iff.1 h with ⟨_, _, hform⟩ | ⟨k, t, ⟨_, hnext, _⟩, rfl, ht, _⟩
  · obtain ⟨ws, _, hrenders⟩ :=
      Instruction.form_text (writable_of_parse h).identifiers hform.ne_message
    exact hrenders.no_newline
  · obtain ⟨before, hrest, _⟩ := Cursor.leads_next hnext
    have hno : '\n' ∉ t.toList := by
      intro hmem
      rw [ht] at hmem
      refine hl ?_
      rw [show l.text.toList = before ++ k.rest from hrest]
      exact List.mem_append_right before (template_subset k.rest hmem)
    simp [Instruction.text, hno]

end Line

end RegisterMachine
