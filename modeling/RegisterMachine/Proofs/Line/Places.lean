import RegisterMachine.Line
import RegisterMachine.Proofs.Token.Layout

/-!
# `RegisterMachine.Proofs.Line.Places` — reading arguments does not look at places

The readers of arguments pass the spans of tokens on to their complaints, and do
nothing else with them.  So tokens of the same shapes that stand elsewhere make the
same instruction, or the same complaint about a place elsewhere.

How the places are related is left open: `R` is any relation of spans.  Two readers
are the `Same` if they answer tokens that are alike with results that are alike; a
reader is then the same as itself, whatever it reads (`same_read`).
-/

namespace RegisterMachine

variable {R : Span → Span → Prop}

/-! ## Readers -/

namespace Arguments

/-- The same tokens are left, at places that are related -/
structure Alike (R : Span → Span → Prop) (a a' : Arguments) : Prop where
  opcode : a.opcode.text = a'.opcode.text
  last : R a.last a'.last
  rest : List.Forall₂ (Token.Alike R) a.rest a'.rest

/-- Two readers make the same of tokens at places that are related -/
def Same (R : Span → Span → Prop) {α : Type} (X : α → α → Prop) (r r' : Reader α) : Prop :=
  ∀ a a' : Arguments, a.Alike R a' →
    Except.Rel (Diagnostic.Alike R) (fun x x' => X x.1 x'.1 ∧ x.2.Alike R x'.2) (r a) (r' a')

variable {α β : Type} {X : α → α → Prop} {Y : β → β → Prop}

theorem same_pure {x x' : α} (h : X x x') : Same R X (pure x) (pure x') :=
  fun _ _ ha => .ok ⟨h, ha⟩

theorem Same.bind {r r' : Reader α} {f f' : α → Reader β} (hr : Same R X r r')
    (hf : ∀ x x', X x x' → Same R Y (f x) (f' x')) : Same R Y (r >>= f) (r' >>= f') :=
  fun _ _ ha => (hr _ _ ha).bind fun x x' hx => hf x.1 x'.1 hx.1 _ _ hx.2

theorem Same.map {r r' : Reader α} {f f' : α → β} (hr : Same R X r r')
    (hf : ∀ x x', X x x' → Y (f x) (f' x')) : Same R Y (f <$> r) (f' <$> r') :=
  fun _ _ ha => (hr _ _ ha).bind fun x x' hx => .ok ⟨hf x.1 x'.1 hx.1, hx.2⟩

theorem same_token (expected : Expectation) :
    Same R (Token.Alike R) (token expected) (token expected) := by
  rintro ⟨opcode, last, rest⟩ ⟨opcode', last', rest'⟩ ⟨hopcode, hlast, hrest⟩
  cases hrest with
  | nil =>
    refine .error ?_
    rw [show opcode.text = opcode'.text from hopcode]
    exact Cause.alike_diagnostic _ hlast
  | cons ht hrest => exact .ok ⟨ht, hopcode, ht.span, hrest⟩

theorem same_refuse (expected : Expectation) {t t' : Token} (h : t.Alike R t') :
    Same R X (refuse expected t) (refuse expected t') := by
  intro a a' ha
  refine .error ?_
  rw [ha.opcode, h.text_eq]
  exact Cause.alike_diagnostic _ h.span

theorem same_tokenOf (kind : Token.Kind) (expected : Expectation) :
    Same R (Token.Alike R) (tokenOf kind expected) (tokenOf kind expected) := by
  refine (same_token expected).bind fun t t' ht => ?_
  rw [ht.kind_eq]
  split
  · exact same_pure ht
  · exact same_refuse expected ht

theorem same_name (expected : Expectation) : Same R Eq (name expected) (name expected) :=
  (same_tokenOf .identifier expected).map fun _ _ ht => ht.text_eq

theorem same_separator : Same R Eq separator separator :=
  (same_tokenOf .comma .separator).bind fun _ _ _ => same_pure rfl

theorem same_literal {t t' : Token} (h : t.Alike R t') : Same R Eq (literal t) (literal t') := by
  intro a a' ha
  rw [literal, literal, h.text_eq]
  split
  · exact .ok ⟨rfl, ha⟩
  · exact .error (Cause.alike_diagnostic _ h.span)

theorem same_operand : Same R Eq operand operand := by
  refine (same_token .operand).bind fun t t' ht => ?_
  rw [ht.kind_eq]
  cases t'.kind with
  | integer => exact same_literal ht
  | identifier => exact same_pure (congrArg Operand.register ht.text_eq)
  | comma | colon => exact same_refuse .operand ht

theorem same_read (m : Mnemonic) : Same R Eq m.read m.read := by
  cases m with
  | binary op =>
    refine (same_name .targetRegister).bind fun target _ htarget => ?_
    refine same_separator.bind fun _ _ _ => same_operand.bind fun source _ hsource => ?_
    exact same_pure (htarget ▸ hsource ▸ rfl)
  | unary op => exact (same_name .targetRegister).bind fun _ _ h => same_pure (h ▸ rfl)
  | compare =>
    refine same_operand.bind fun left _ hleft => same_separator.bind fun _ _ _ => ?_
    exact same_operand.bind fun right _ hright => same_pure (hleft ▸ hright ▸ rfl)
  | jump condition => exact (same_name .label).bind fun _ _ h => same_pure (h ▸ rfl)
  | call => exact (same_name .label).bind fun _ _ h => same_pure (h ▸ rfl)
  | ret | halt => exact same_pure rfl

theorem alike_readAll {r : Reader α} (hr : Same R Eq r r) {opcode opcode' : Token}
    {rest rest' : List Token} (h : opcode.Alike R opcode')
    (hrest : List.Forall₂ (Token.Alike R) rest rest') :
    Except.Rel (Diagnostic.Alike R) Eq (readAll r opcode rest) (readAll r opcode' rest') := by
  have hstart : (start opcode rest).Alike R (start opcode' rest') := ⟨h.text_eq, h.span, hrest⟩
  refine (hr _ _ hstart).bind ?_
  rintro ⟨x, a⟩ ⟨_, a'⟩ ⟨rfl, ha⟩
  have hleft := ha.rest
  dsimp only at hleft ⊢
  generalize a.rest = left at hleft ⊢
  generalize a'.rest = left' at hleft ⊢
  cases hleft with
  | nil => exact .ok rfl
  | cons ht _ =>
    refine .error ?_
    rw [ht.text_eq, h.text_eq]
    exact Cause.alike_diagnostic _ ht.span

end Arguments

/-! ## Lines whose tokens have been scanned -/

theorem Line.alike_ofTokens {first first' : Token} {rest rest' : List Token}
    (h : first.Alike R first') (hrest : List.Forall₂ (Token.Alike R) rest rest') :
    Except.Rel (Diagnostic.Alike R) Eq (Line.ofTokens first rest) (Line.ofTokens first' rest') := by
  have hkinds : rest.map Token.kind = rest'.map Token.kind := by
    induction hrest with
    | nil => rfl
    | cons ht _ ih => rw [List.map_cons, List.map_cons, ht.kind_eq, ih]
  rw [Line.ofTokens, Line.ofTokens, hkinds, h.text_eq]
  split
  · exact .ok rfl
  · split
    · exact Arguments.alike_readAll (Arguments.same_read _) h hrest
    · exact .error (Cause.alike_diagnostic _ h.span)

end RegisterMachine
