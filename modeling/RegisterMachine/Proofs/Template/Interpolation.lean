import RegisterMachine.Proofs.Machine.Faults
import RegisterMachine.Proofs.Template.Writing

/-!
# `RegisterMachine.Proofs.Template.Interpolation` — the message that a template comes to

A part says a text, given the registers (`Part.Says`): a quoted text says itself, and a
register its value in decimal digits, if it exists.  The message of a template is what
its parts say, one behind the other (`interpolate_eq_ok_iff`); where a part says nothing
there is no message, and the fault is about the first such part
(`interpolate_eq_error_iff_missing`).

Since this looks at the registers that are named and at nothing else, stores that agree
on them come to the same message, or want the same register.  Templates with a comma
between them come to their messages one behind the other, unless the comma is quoted.
-/

namespace RegisterMachine.Template

variable {V : Type} [Cell V] {r s : Registers V} {template : String}

/-- What a part says, given the registers -/
inductive Part.Says (r : Registers V) : Part → String → Prop
  | text (content : String) : Says r (.text content) content
  | register {name : String} {v : V} :
      r.get? name = some v → Says r (.register name) (Decimal.text (Cell.toInt v))

/-- The first register that parts name and that does not exist -/
def FirstMissing (r : Registers V) (ps : List Part) (name : String) : Prop :=
  ∃ before after, ps = before ++ .register name :: after ∧ r.get? name = none ∧
    ∀ n, .register n ∈ before → ∃ v, r.get? n = some v

theorem render_eq_ok_iff {part : Part} {text : String} :
    part.render r = .ok text ↔ part.Says r text := by
  cases part with
  | text content =>
    constructor
    · intro h
      cases h
      exact .text _
    · rintro ⟨⟩
      rfl
  | register name =>
    cases hget : r.get? name with
    | none =>
      have hfetch := Registers.fetch_eq_error_iff.2 ⟨hget, rfl⟩
      rw [Part.render, hfetch]
      constructor
      · intro h
        cases h
      · rintro ⟨⟩
        rename_i hsome
        rw [hget] at hsome
        cases hsome
    | some v =>
      rw [Part.render, Registers.fetch_eq_ok_iff.2 hget]
      constructor
      · intro h
        cases h
        exact .register hget
      · rintro ⟨⟩
        rename_i hsome
        rw [hget] at hsome
        cases hsome
        rfl

/-! ## Messages -/

theorem interpolate_eq_ok_iff {text : String} :
    interpolate template r = .ok text ↔
      ∃ texts, List.Forall₂ (Part.Says r) (parts template) texts ∧ text = String.join texts := by
  have hmeans : ∀ {ps : List Part} {texts : List String},
      ps.mapM (Part.render r) = .ok texts ↔ List.Forall₂ (Part.Says r) ps texts := by
    intro ps texts
    simp only [Except.mapM_eq_ok_iff, render_eq_ok_iff]
  rw [interpolate]
  cases hrender : (parts template).mapM (Part.render r) with
  | error c =>
    constructor
    · intro h
      cases h
    · rintro ⟨texts, htexts, _⟩
      rw [hmeans.2 htexts] at hrender
      cases hrender
  | ok texts =>
    constructor
    · intro h
      cases h
      exact ⟨texts, hmeans.1 hrender, rfl⟩
    · rintro ⟨texts', htexts, rfl⟩
      rw [hmeans.2 htexts] at hrender
      cases hrender
      rfl

theorem interpolate_eq_error_iff_missing {c : Cause} :
    interpolate template r = .error c ↔
      ∃ name, FirstMissing r (parts template) name ∧ c = .uninitialized name r.contents := by
  have hset : ∀ {ps : List Part}, (∀ part ∈ ps, ∃ text, part.render r = .ok text) ↔
      ∀ n, .register n ∈ ps → ∃ v, r.get? n = some v := by
    intro ps
    constructor
    · intro h n hn
      obtain ⟨text, htext⟩ := h _ hn
      cases render_eq_ok_iff.1 htext with
      | register hget => exact ⟨_, hget⟩
    · intro h part hpart
      cases part with
      | text content => exact ⟨content, rfl⟩
      | register n =>
        obtain ⟨v, hv⟩ := h n hpart
        exact ⟨_, render_eq_ok_iff.2 (.register hv)⟩
  rw [interpolate_eq_error_iff, Except.mapM_eq_error_iff]
  constructor
  · rintro ⟨before, part, after, hsplit, hbefore, hpart⟩
    obtain ⟨name, rfl, hfetch⟩ := fetch_of_render hpart
    obtain ⟨hnone, rfl⟩ := Registers.fetch_eq_error_iff.1 hfetch
    exact ⟨name, ⟨before, after, hsplit, hnone, hset.1 hbefore⟩, rfl⟩
  · rintro ⟨name, ⟨before, after, hsplit, hnone, hbefore⟩, rfl⟩
    refine ⟨before, _, after, hsplit, hset.2 hbefore, ?_⟩
    rw [Part.render, Registers.fetch_eq_error_iff.2 ⟨hnone, rfl⟩]
    rfl

/-- There is a message if all registers that are named exist -/
theorem exists_interpolate_iff :
    (∃ text, interpolate template r = .ok text) ↔
      ∀ name, .register name ∈ parts template → ∃ v, r.get? name = some v := by
  constructor
  · rintro ⟨text, htext⟩ name hname
    cases hget : r.get? name with
    | some v => exact ⟨v, rfl⟩
    | none =>
      obtain ⟨c, hc⟩ := interpolate_of_get?_none hname hget
      rw [htext] at hc
      cases hc
  · intro h
    cases htext : interpolate template r with
    | ok text => exact ⟨text, rfl⟩
    | error c =>
      obtain ⟨name, ⟨before, after, hsplit, hnone, _⟩, _⟩ :=
        interpolate_eq_error_iff_missing.1 htext
      obtain ⟨v, hv⟩ := h name (hsplit ▸ List.mem_append_right before List.mem_cons_self)
      rw [hnone] at hv
      cases hv

/-! ## Other registers -/

/-- The stores hold the same in the registers that the template names -/
def AgreeOn (template : String) (r s : Registers V) : Prop :=
  ∀ name, .register name ∈ parts template → r.get? name = s.get? name

theorem AgreeOn.texts (h : AgreeOn template r s) {ps : List Part} (hps : ps ⊆ parts template)
    {texts : List String} (htexts : List.Forall₂ (Part.Says r) ps texts) :
    List.Forall₂ (Part.Says s) ps texts := by
  induction htexts with
  | nil => exact .nil
  | cons htext _ ih =>
    obtain ⟨hpart, hps⟩ := List.cons_subset.1 hps
    refine .cons ?_ (ih hps)
    cases htext with
    | text => exact .text _
    | register hget => exact .register ((h _ hpart).symm.trans hget)

omit [Cell V] in
theorem AgreeOn.firstMissing (h : AgreeOn template r s) {name : String}
    (hmissing : FirstMissing r (parts template) name) : FirstMissing s (parts template) name := by
  obtain ⟨before, after, hsplit, hnone, hbefore⟩ := hmissing
  refine ⟨before, after, hsplit, ?_, ?_⟩
  · exact (h name (hsplit ▸ List.mem_append_right before List.mem_cons_self)).symm.trans hnone
  · intro n hn
    obtain ⟨v, hv⟩ := hbefore n hn
    exact ⟨v, (h n (hsplit ▸ List.mem_append_left _ hn)).symm.trans hv⟩

/-- Registers that are not named make no difference -/
theorem AgreeOn.interpolate_eq (h : AgreeOn template r s) :
    (∃ text, interpolate template r = .ok text ∧ interpolate template s = .ok text) ∨
      ∃ name, interpolate template r = .error (.uninitialized name r.contents) ∧
        interpolate template s = .error (.uninitialized name s.contents) := by
  cases htext : interpolate template r with
  | ok text =>
    obtain ⟨texts, htexts, rfl⟩ := interpolate_eq_ok_iff.1 htext
    exact .inl ⟨_, rfl, interpolate_eq_ok_iff.2 ⟨texts, h.texts (List.Subset.refl _) htexts, rfl⟩⟩
  | error c =>
    obtain ⟨name, hmissing, rfl⟩ := interpolate_eq_error_iff_missing.1 htext
    exact .inr ⟨name, rfl, interpolate_eq_error_iff_missing.2 ⟨name, h.firstMissing hmissing, rfl⟩⟩

/-! ## Longer templates -/

/-- A comma behind an even number of quotes stands between the parts -/
theorem parts_append {t₁ t₂ : String} (heven : t₁.toList.count quote % 2 = 0) :
    parts (t₁ ++ "," ++ t₂) = parts t₁ ++ parts t₂ := by
  have hcomma : isSeparator ',' = true := by decide
  have hbehind : Writes (parts t₂) (',' :: t₂.toList) := .separator hcomma (parts_eq_iff.1 rfl)
  have hstop : ∀ c ∈ (',' :: t₂.toList).head?, isNameChar c = false := by
    rintro c ⟨⟩
    exact isNameChar_of_isSeparator hcomma
  have htext : (t₁ ++ "," ++ t₂).toList = t₁.toList ++ ',' :: t₂.toList := by
    simp
  rw [parts_eq_iff, htext]
  exact (parts_eq_iff.1 rfl).append heven hbehind hstop

theorem interpolate_append {t₁ t₂ : String} (heven : t₁.toList.count quote % 2 = 0) :
    interpolate (t₁ ++ "," ++ t₂) r = do
      let text₁ ← interpolate t₁ r
      let text₂ ← interpolate t₂ r
      return text₁ ++ text₂ := by
  rw [interpolate, interpolate, interpolate, parts_append heven, List.mapM_append]
  cases (parts t₁).mapM (Part.render r) with
  | error c => rfl
  | ok texts₁ =>
    cases (parts t₂).mapM (Part.render r) with
    | error c => rfl
    | ok texts₂ => exact congrArg Except.ok String.join_append

/-! ## Exactness -/

/-- The message of a template is what its parts say one behind the other.  There is one exactly if
all registers that the template names exist, and otherwise the fault names the first that does not.
Registers that it does not name make no difference.  Templates with a comma between them, the first
with all its texts closed, come to their messages one behind the other, or to the first fault -/
theorem message_exact :
    (∀ (template : String) (r : Registers Word),
      ((∃ text, interpolate template r = .ok text) ↔
        ∀ name, .register name ∈ parts template → ∃ v, r.get? name = some v) ∧
      (∀ text, interpolate template r = .ok text ↔
        ∃ texts, List.Forall₂ (Part.Says r) (parts template) texts ∧ text = String.join texts) ∧
      (∀ c, interpolate template r = .error c ↔
        ∃ name, FirstMissing r (parts template) name ∧ c = .uninitialized name r.contents)) ∧
    (∀ (template : String) (r s : Registers Word), AgreeOn template r s →
      (∃ text, interpolate template r = .ok text ∧ interpolate template s = .ok text) ∨
        ∃ name, interpolate template r = .error (.uninitialized name r.contents) ∧
          interpolate template s = .error (.uninitialized name s.contents)) ∧
    ∀ (t₁ t₂ : String) (r : Registers Word), t₁.toList.count quote % 2 = 0 →
      interpolate (t₁ ++ "," ++ t₂) r = do
        let text₁ ← interpolate t₁ r
        let text₂ ← interpolate t₂ r
        return text₁ ++ text₂ := by
  refine ⟨?_, ?_, ?_⟩
  · intro template r
    refine ⟨exists_interpolate_iff, ?_, ?_⟩
    · intro text
      exact interpolate_eq_ok_iff
    · intro c
      exact interpolate_eq_error_iff_missing
  · intro template r s h
    exact h.interpolate_eq
  · intro t₁ t₂ r heven
    exact interpolate_append heven

/-- A register that is not named, and a text that is closed before the comma -/
theorem message_exact_comma :
    ∃ r s : Registers Word, r.get? "y" ≠ s.get? "y" ∧ AgreeOn "'x=' x" r s ∧
      (∃ text, interpolate "'x=' x" r = .ok text ∧ interpolate "'x=' x" s = .ok text) ∧
      interpolate ("'x=' x" ++ "," ++ "'.") r = .ok "x=1." := by
  have hparts : parts "'x=' x" = [.text "x=", .register "x"] := by with_unfolding_all rfl
  have hbehind : parts "'." = [.text "."] := by with_unfolding_all rfl
  have hagree : AgreeOn "'x=' x" (Registers.ofList [("x", (1 : Word))])
      (Registers.ofList [("x", 1), ("y", 2)]) := by
    intro name hname
    rw [hparts] at hname
    cases hname with
    | tail _ hname => cases List.mem_singleton.1 hname; rfl
  have hfirst : interpolate "'x=' x" (Registers.ofList [("x", (1 : Word))]) = .ok "x=1" := by
    refine ((message_exact.1 _ _).2.1 _).2
      ⟨["x=", Decimal.text (Cell.toInt (1 : Word))], ?_, by decide⟩
    rw [hparts]
    exact .cons (.text _) (.cons (.register rfl) .nil)
  have hlast : interpolate "'." (Registers.ofList [("x", (1 : Word))]) = .ok "." := by
    refine ((message_exact.1 _ _).2.1 _).2 ⟨["."], ?_, rfl⟩
    rw [hbehind]
    exact .cons (.text _) .nil
  refine ⟨_, _, by decide, hagree, ?_, ?_⟩
  · refine (message_exact.2.1 _ _ _ hagree).resolve_right ?_
    rintro ⟨name, hfault, _⟩
    rw [hfirst] at hfault
    cases hfault
  · rw [message_exact.2.2 _ _ _ (by decide), hfirst, hlast]
    rfl

end RegisterMachine.Template
