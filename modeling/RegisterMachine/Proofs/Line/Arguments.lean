import RegisterMachine.Mnemonic
import RegisterMachine.Proofs.Token.Render

/-!
# `RegisterMachine.Proofs.Line.Arguments` — what the readers of arguments accept

A reader takes tokens from the front of what is left and makes something of
them.  `Accepts r P` says exactly which: `r` makes `x` of tokens with the shapes
`ws` if and only if `P x ws`, and takes no more than these.  A reader that
refuses complains, as a parser, about a token it could see or the one before.

    reader            accepts
    name              an identifier
    separator         a comma
    operand           an identifier, or an integer that is a machine word
    Mnemonic.read     the arguments of the mnemonic (`Mnemonic.Takes`)
-/

namespace RegisterMachine

open Token (Shape)

/-! ## The grammar of arguments -/

/-- The token that an operand is written with: an integer may have leading zeros, and may be `-0` -/
inductive Operand.Form : Operand → Shape → Prop
  | register (name : String) : Form (.register name) (.identifier, name)
  | literal {value : Word} {text : String} :
      Decimal.int? text.toList = some value.toInt → Form (.literal value) (.integer, text)

/-- The arguments that make an instruction of a mnemonic -/
inductive Mnemonic.Takes : Mnemonic → Instruction → List Shape → Prop
  | binary {op : BinaryOp} {target : String} {source : Operand} {w : Shape} : source.Form w →
      Takes (.binary op) (.operate (.binary op source) target)
        [(.identifier, target), (.comma, ","), w]
  | unary {op : UnaryOp} {target : String} :
      Takes (.unary op) (.operate (.unary op) target) [(.identifier, target)]
  | compare {left right : Operand} {w v : Shape} : left.Form w → right.Form v →
      Takes .compare (.compare left right) [w, (.comma, ","), v]
  | jump {condition : Condition} {target : String} :
      Takes (.jump condition) (.jump condition target) [(.identifier, target)]
  | call {target : String} : Takes .call (.call target) [(.identifier, target)]
  | ret : Takes .ret .ret []
  | halt : Takes .halt .halt []

/-! ## Readers -/

namespace Arguments

/-- The tokens left are texts of their classes -/
def Matched (a : Arguments) : Prop :=
  ∀ t ∈ a.rest, t.kind.Matches t.text.toList

/-- The spans that a complaint can be about -/
def spans (a : Arguments) : List Span :=
  a.last :: a.rest.map Token.span

structure Accepts {α : Type} (r : Reader α) (P : α → List Shape → Prop) : Prop where
  sound : ∀ {a a' : Arguments} {x : α}, a.Matched → r a = .ok (x, a') →
    ∃ us, a.rest = us ++ a'.rest ∧ P x (us.map Token.shape)
  complete : ∀ {a : Arguments} {x : α} {us rest : List Token}, a.rest = us ++ rest →
    P x (us.map Token.shape) → ∃ a', r a = .ok (x, a') ∧ a'.rest = rest
  spans_subset : ∀ {a a' : Arguments} {x : α}, r a = .ok (x, a') → a'.spans ⊆ a.spans
  fault : ∀ {a : Arguments} {d : Diagnostic}, r a = .error d →
    d.kind = .parse ∧ ∃ s ∈ a.spans, d.span = some s

variable {α β : Type}

/-- What is accepted may be said in other words, of tokens that are texts of their classes -/
theorem Accepts.congr {r : Reader α} {P Q : α → List Shape → Prop} (h : Accepts r P)
    (hPQ : ∀ x ws, (∀ w ∈ ws, w.1.Matches w.2.toList) → P x ws → Q x ws)
    (hQP : ∀ x ws, Q x ws → P x ws) : Accepts r Q where
  sound := by
    intro a a' x hm hr
    obtain ⟨us, hus, hp⟩ := h.sound hm hr
    refine ⟨us, hus, hPQ _ _ ?_ hp⟩
    intro w hw
    obtain ⟨t, ht, rfl⟩ := List.mem_map.1 hw
    exact hm t (hus ▸ List.mem_append_left _ ht)
  complete hus hq := h.complete hus (hQP _ _ hq)
  spans_subset := h.spans_subset
  fault := h.fault

theorem accepts_pure (x : α) : Accepts (pure x) fun y ws => y = x ∧ ws = [] where
  sound _ h := by
    cases h
    exact ⟨[], rfl, rfl, rfl⟩
  complete := by
    rintro a _ us rest hus ⟨rfl, hnil⟩
    cases List.map_eq_nil_iff.1 hnil
    exact ⟨a, rfl, hus⟩
  spans_subset h := by
    cases h
    exact List.Subset.refl _
  fault h := by cases h

theorem Accepts.bind {r : Reader α} {f : α → Reader β} {P : α → List Shape → Prop}
    {Q : α → β → List Shape → Prop} (hr : Accepts r P) (hf : ∀ x, Accepts (f x) (Q x)) :
    Accepts (r >>= f) fun y ws => ∃ x us vs, ws = us ++ vs ∧ P x us ∧ Q x y vs where
  sound := by
    intro a a' y hm h
    obtain ⟨⟨x, b⟩, hx, hy⟩ := Except.bind_eq_ok_iff.1 h
    obtain ⟨us, hus, hp⟩ := hr.sound hm hx
    have hb : b.Matched := fun t ht => hm t (hus ▸ List.mem_append_right us ht)
    obtain ⟨vs, hvs, hq⟩ := (hf x).sound hb hy
    refine ⟨us ++ vs, ?_, x, us.map Token.shape, vs.map Token.shape, List.map_append, hp, hq⟩
    rw [hus, hvs, List.append_assoc]
  complete := by
    rintro a y ts rest hts ⟨x, us, vs, hws, hp, hq⟩
    obtain ⟨us, vs, rfl, rfl, rfl⟩ := List.map_eq_append_iff.1 hws
    rw [List.append_assoc] at hts
    obtain ⟨b, hx, hb⟩ := hr.complete hts hp
    obtain ⟨a', hy, ha'⟩ := (hf x).complete hb hq
    exact ⟨a', Except.bind_eq_ok_iff.2 ⟨(x, b), hx, hy⟩, ha'⟩
  spans_subset := by
    intro a a' y h
    obtain ⟨⟨x, b⟩, hx, hy⟩ := Except.bind_eq_ok_iff.1 h
    exact List.Subset.trans ((hf x).spans_subset hy) (hr.spans_subset hx)
  fault := by
    intro a d h
    rcases Except.bind_eq_error_iff.1 h with h | ⟨⟨x, b⟩, hx, h⟩
    · exact hr.fault h
    · obtain ⟨hkind, s, hs, hd⟩ := (hf x).fault h
      exact ⟨hkind, s, hr.spans_subset hx hs, hd⟩

/-! ## Single tokens -/

theorem tokenOf_cons {kind : Token.Kind} {expected : Expectation} {opcode t : Token} {last : Span}
    {rest : List Token} :
    tokenOf kind expected ⟨opcode, last, t :: rest⟩ =
      if t.kind = kind then .ok (t, ⟨opcode, t.span, rest⟩)
      else .error ((Cause.mismatch expected opcode.text t.text).diagnostic t.span) := by
  show (if t.kind = kind then pure t else refuse expected t : Reader Token) _ = _
  split <;> rfl

theorem accepts_tokenOf (kind : Token.Kind) (expected : Expectation) :
    Accepts (Token.text <$> tokenOf kind expected) fun text ws => ws = [(kind, text)] where
  sound := by
    rintro ⟨opcode, last, _ | ⟨t, rest⟩⟩ a' text _ h
    · cases h
    · obtain ⟨⟨u, b⟩, hu, h⟩ := Except.bind_eq_ok_iff.1 h
      rw [tokenOf_cons] at hu
      split at hu
      · rename_i hkind
        cases hu
        cases h
        exact ⟨[t], rfl, by rw [← hkind]; rfl⟩
      · cases hu
  complete := by
    rintro ⟨opcode, last, rest⟩ text us rest' rfl hus
    obtain ⟨t, rfl, ht⟩ := List.map_eq_singleton_iff.1 hus
    obtain ⟨rfl, rfl⟩ := Prod.mk.inj ht
    refine ⟨⟨opcode, t.span, rest'⟩, Except.bind_eq_ok_iff.2 ⟨(t, _), ?_, rfl⟩, rfl⟩
    exact tokenOf_cons.trans (if_pos rfl)
  spans_subset := by
    rintro ⟨opcode, last, _ | ⟨t, rest⟩⟩ a' text h
    · cases h
    · obtain ⟨⟨u, b⟩, hu, h⟩ := Except.bind_eq_ok_iff.1 h
      rw [tokenOf_cons] at hu
      split at hu
      · cases hu
        cases h
        exact List.subset_cons_self _ _
      · cases hu
  fault := by
    rintro ⟨opcode, last, _ | ⟨t, rest⟩⟩ d h
    · cases h
      exact ⟨rfl, last, List.mem_cons_self, rfl⟩
    · rcases Except.bind_eq_error_iff.1 h with h | ⟨_, _, h⟩
      · rw [tokenOf_cons] at h
        split at h
        · cases h
        · cases h
          exact ⟨rfl, t.span, List.mem_cons_of_mem _ List.mem_cons_self, rfl⟩
      · cases h

theorem accepts_separator : Accepts separator fun _ ws => ws = [(.comma, ",")] := by
  have h : separator = (Token.text <$> tokenOf .comma .separator) >>= fun _ => pure () := by
    funext a
    show (tokenOf .comma .separator a >>= _) = ((tokenOf .comma .separator a >>= _) >>= _)
    cases tokenOf .comma .separator a <;> rfl
  rw [h]
  refine ((accepts_tokenOf _ _).bind fun _ => accepts_pure ()).congr ?_ ?_
  · rintro _ _ hm ⟨text, _, _, rfl, rfl, _, rfl⟩
    have htext : text.toList = [','] := hm (.comma, text) List.mem_cons_self
    rw [← String.ofList_toList (s := text), htext]
    rfl
  · rintro _ _ rfl
    exact ⟨",", [(.comma, ",")], [], rfl, rfl, rfl, rfl⟩

theorem operand_cons {opcode t : Token} {last : Span} {rest : List Token} :
    operand ⟨opcode, last, t :: rest⟩ =
      match t.kind with
      | .integer => literal t ⟨opcode, t.span, rest⟩
      | .identifier => .ok (.register t.text, ⟨opcode, t.span, rest⟩)
      | _ => refuse .operand t ⟨opcode, t.span, rest⟩ := by
  show (match t.kind with
    | .integer => literal t
    | .identifier => pure (.register t.text)
    | _ => refuse .operand t : Reader Operand) _ = _
  cases t.kind <;> rfl

theorem read?_eq_some_iff {cs : List Char} {w : Word} :
    Word.read? cs = some w ↔ Decimal.int? cs = some w.toInt := by
  simp only [Word.read?, Option.bind_eq_some_iff, Word.ofInt?_eq_some_iff]
  constructor
  · rintro ⟨n, hn, rfl⟩
    exact hn
  · intro h
    exact ⟨_, h, rfl⟩

theorem literal_eq_ok_iff {t : Token} {a b : Arguments} {o : Operand} :
    literal t a = .ok (o, b) ↔
      ∃ w : Word, Decimal.int? t.text.toList = some w.toInt ∧ o = .literal w ∧ b = a := by
  rw [literal]
  split
  · rename_i w hw
    have hint := read?_eq_some_iff.1 hw
    constructor
    · intro h
      cases h
      exact ⟨w, hint, rfl, rfl⟩
    · rintro ⟨v, hv, rfl, rfl⟩
      rw [read?_eq_some_iff.2 hv] at hw
      cases hw
      rfl
  · rename_i hw
    constructor
    · intro h
      cases h
    · rintro ⟨v, hv, _⟩
      rw [read?_eq_some_iff.2 hv] at hw
      cases hw

theorem operand_eq_ok_iff {opcode t : Token} {last : Span} {rest : List Token} {o : Operand}
    {b : Arguments} :
    operand ⟨opcode, last, t :: rest⟩ = .ok (o, b) ↔
      o.Form t.shape ∧ b = ⟨opcode, t.span, rest⟩ := by
  obtain ⟨kind, text, span⟩ := t
  rw [operand_cons]
  cases kind with
  | integer =>
    refine literal_eq_ok_iff.trans ?_
    constructor
    · rintro ⟨w, hw, rfl, rfl⟩
      exact ⟨.literal hw, rfl⟩
    · rintro ⟨hform, rfl⟩
      cases hform with
      | literal hw => exact ⟨_, hw, rfl, rfl⟩
  | identifier =>
    constructor
    · intro h
      cases h
      exact ⟨.register text, rfl⟩
    · rintro ⟨hform, rfl⟩
      cases hform
      rfl
  | comma | colon =>
    constructor
    · intro h
      cases h
    · rintro ⟨hform, _⟩
      cases hform

theorem accepts_operand : Accepts operand fun o ws => ∃ w, ws = [w] ∧ o.Form w where
  sound := by
    rintro ⟨opcode, last, _ | ⟨t, rest⟩⟩ a' o _ h
    · cases h
    · obtain ⟨hform, rfl⟩ := operand_eq_ok_iff.1 h
      exact ⟨[t], rfl, t.shape, rfl, hform⟩
  complete := by
    rintro ⟨opcode, last, rest⟩ o us rest' rfl ⟨w, hus, hform⟩
    obtain ⟨t, rfl, rfl⟩ := List.map_eq_singleton_iff.1 hus
    exact ⟨_, operand_eq_ok_iff.2 ⟨hform, rfl⟩, rfl⟩
  spans_subset := by
    rintro ⟨opcode, last, _ | ⟨t, rest⟩⟩ a' o h
    · cases h
    · obtain ⟨_, rfl⟩ := operand_eq_ok_iff.1 h
      exact List.subset_cons_self _ _
  fault := by
    rintro ⟨opcode, last, _ | ⟨t, rest⟩⟩ d h
    · cases h
      exact ⟨rfl, last, List.mem_cons_self, rfl⟩
    · have hfault : d.kind = .parse ∧ d.span = some t.span := by
        rw [operand_cons] at h
        split at h
        · rw [literal] at h
          split at h <;> cases h
          exact ⟨rfl, rfl⟩
        · cases h
        · cases h
          exact ⟨rfl, rfl⟩
      exact ⟨hfault.1, t.span, List.mem_cons_of_mem _ List.mem_cons_self, hfault.2⟩

/-! ## Mnemonics -/

/-- A single name, and what is made of it -/
theorem accepts_named (expected : Expectation) (f : String → Instruction) :
    Accepts (name expected >>= fun target => pure (f target)) fun i ws =>
      ∃ target, i = f target ∧ ws = [(.identifier, target)] := by
  refine ((accepts_tokenOf .identifier expected).bind fun target =>
    accepts_pure (f target)).congr ?_ ?_
  · rintro _ _ _ ⟨target, _, _, rfl, rfl, rfl, rfl⟩
    exact ⟨target, rfl, rfl⟩
  · rintro _ _ ⟨target, rfl, rfl⟩
    exact ⟨target, [_], [], rfl, rfl, rfl, rfl⟩

theorem accepts_read (m : Mnemonic) : Accepts m.read m.Takes := by
  cases m with
  | binary op =>
    refine ((accepts_tokenOf .identifier .targetRegister).bind fun target =>
      accepts_separator.bind fun _ => accepts_operand.bind fun source =>
        accepts_pure (Instruction.operate (.binary op source) target)).congr ?_ ?_
    · rintro _ _ _ ⟨_, _, _, rfl, rfl, _, _, _, rfl, rfl, _, _, _, rfl, ⟨_, rfl, h⟩, rfl, rfl⟩
      exact .binary h
    · rintro _ _ ⟨h⟩
      exact ⟨_, [_], _, rfl, rfl, (), [_], _, rfl, rfl, _, [_], [], rfl, ⟨_, rfl, h⟩, rfl, rfl⟩
  | unary op =>
    refine (accepts_named .targetRegister fun target => .operate (.unary op) target).congr ?_ ?_
    · rintro _ _ _ ⟨_, rfl, rfl⟩
      exact .unary
    · rintro _ _ ⟨⟩
      exact ⟨_, rfl, rfl⟩
  | compare =>
    refine (accepts_operand.bind fun left => accepts_separator.bind fun _ =>
      accepts_operand.bind fun right => accepts_pure (Instruction.compare left right)).congr ?_ ?_
    · rintro _ _ _ ⟨_, _, _, rfl, ⟨_, rfl, hl⟩, _, _, _, rfl, rfl, _, _, _, rfl, ⟨_, rfl, hr⟩,
        rfl, rfl⟩
      exact .compare hl hr
    · intro _ _ h
      cases h with
      | compare hl hr =>
        exact ⟨_, [_], _, rfl, ⟨_, rfl, hl⟩, (), [_], _, rfl, rfl, _, [_], [], rfl, ⟨_, rfl, hr⟩,
          rfl, rfl⟩
  | jump condition =>
    refine (accepts_named .label fun target => .jump condition target).congr ?_ ?_
    · rintro _ _ _ ⟨_, rfl, rfl⟩
      exact .jump
    · rintro _ _ ⟨⟩
      exact ⟨_, rfl, rfl⟩
  | call =>
    refine (accepts_named .label fun target => .call target).congr ?_ ?_
    · rintro _ _ _ ⟨_, rfl, rfl⟩
      exact .call
    · rintro _ _ ⟨⟩
      exact ⟨_, rfl, rfl⟩
  | ret =>
    refine (accepts_pure Instruction.ret).congr ?_ ?_
    · rintro _ _ _ ⟨rfl, rfl⟩
      exact .ret
    · rintro _ _ ⟨⟩
      exact ⟨rfl, rfl⟩
  | halt =>
    refine (accepts_pure Instruction.halt).congr ?_ ?_
    · rintro _ _ _ ⟨rfl, rfl⟩
      exact .halt
    · rintro _ _ ⟨⟩
      exact ⟨rfl, rfl⟩

/-! ## All the tokens behind an opcode -/

variable {r : Reader α} {P : α → List Shape → Prop} {opcode : Token} {rest : List Token}

theorem readAll_eq_ok_iff (h : Accepts r P) (hm : ∀ t ∈ rest, t.kind.Matches t.text.toList)
    {x : α} : readAll r opcode rest = .ok x ↔ P x (rest.map Token.shape) := by
  constructor
  · intro hr
    obtain ⟨⟨y, a⟩, hy, hr⟩ := Except.bind_eq_ok_iff.1 hr
    obtain ⟨us, hus, hp⟩ := h.sound (a := start opcode rest) hm hy
    dsimp only at hr
    split at hr
    · rename_i hnil
      cases hr
      rw [show rest = us ++ a.rest from hus, hnil, List.append_nil]
      exact hp
    · cases hr
  · intro hp
    obtain ⟨a, ha, hnil⟩ := h.complete (a := start opcode rest) (List.append_nil rest).symm hp
    refine Except.bind_eq_ok_iff.2 ⟨(x, a), ha, ?_⟩
    dsimp only
    rw [hnil]
    rfl

theorem fault_of_readAll (h : Accepts r P) {d : Diagnostic}
    (hr : readAll r opcode rest = .error d) :
    d.kind = .parse ∧ ∃ s ∈ opcode.span :: rest.map Token.span, d.span = some s := by
  rcases Except.bind_eq_error_iff.1 hr with hr | ⟨⟨y, a⟩, hy, hr⟩
  · exact h.fault (a := start opcode rest) hr
  · dsimp only at hr
    split at hr
    · cases hr
    · rename_i t ts hts
      cases hr
      refine ⟨rfl, t.span, h.spans_subset (a := start opcode rest) hy ?_, rfl⟩
      rw [spans, hts]
      exact List.mem_cons_of_mem _ List.mem_cons_self

end Arguments

end RegisterMachine
