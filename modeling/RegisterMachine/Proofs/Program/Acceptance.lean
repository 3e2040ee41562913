import RegisterMachine.Proofs.Program.Insertion
import RegisterMachine.Proofs.Program.Spans

/-!
# `RegisterMachine.Proofs.Program.Acceptance` — which sources are programs

A source is a program if all its lines say something (`Source.Readable`) and no label is
defined by two of them (`parse_isOk_iff`).  If there is a line that says nothing, the
source is refused for the first one (`parse_of_refuses`), whatever the labels are.
-/

namespace RegisterMachine

namespace Line

/-- What a line says and where it stands, or why it says nothing -/
def item (l : Line) : Except Diagnostic (Instruction × Span) :=
  l.parse.map fun i => (i, l.span)

/-- The label that a line defines, if it defines one -/
def defines? (l : Line) : Option String :=
  l.parse.toOption.bind Instruction.defines?

end Line

/-! ## Lines -/

namespace Source

/-- All lines say something -/
def Readable (source : String) : Prop :=
  ∀ l ∈ lines source, ∃ i, l.parse = .ok i

/-- The labels that the lines define, from the first to the last -/
def defined (source : String) : List String :=
  (lines source).filterMap Line.defines?

variable {source : String}

theorem items_of_readable (h : Readable source) :
    ∃ is : List (Instruction × Span), items source = is.map .ok := by
  change ∃ is, (lines source).map Line.item = List.map .ok is
  unfold Readable at h
  generalize lines source = ls at h ⊢
  induction ls with
  | nil => exact ⟨[], rfl⟩
  | cons l ls ih =>
    obtain ⟨i, hi⟩ := h l List.mem_cons_self
    obtain ⟨is, his⟩ := ih fun m hm => h m (List.mem_cons_of_mem l hm)
    refine ⟨(i, l.span) :: is, ?_⟩
    rw [List.map_cons, his, Line.item, hi]
    rfl

/-- The labels that the lines define are those of the instructions -/
theorem defined_eq {is : List (Instruction × Span)} (h : items source = is.map .ok) :
    defined source = (labelTable (is.map Prod.fst)).map Prod.fst := by
  have hitem : ∀ l : Line, l.defines? = l.item.toOption.bind fun e => e.1.defines? := by
    intro l
    rw [Line.defines?, Line.item]
    cases l.parse <;> rfl
  calc defined source
      = (items source).filterMap fun x => x.toOption.bind fun e => e.1.defines? := by
        rw [defined, funext hitem, items, List.filterMap_map]
        rfl
    _ = (is.map Prod.fst).filterMap Instruction.defines? := by
        rw [h, List.filterMap_map, List.filterMap_map]
        rfl
    _ = (labelTable (is.map Prod.fst)).map Prod.fst := (map_fst_labelTable _).symm

/-- There is one line that says nothing before all others -/
theorem Refuses.unique {k k' : Nat} {d d' : Diagnostic} (h : Refuses source k d)
    (h' : Refuses source k' d') : k = k' ∧ d = d' := by
  have hnot : ∀ {k k' : Nat} {d d' : Diagnostic}, Refuses source k d → Refuses source k' d' →
      ¬ k < k' := by
    intro k k' d d' h h' hlt
    obtain ⟨l, hl, hfault⟩ := h.fault
    obtain ⟨i, m, hm, hparse⟩ := h'.first k hlt
    rw [hl] at hm
    cases hm
    rw [hfault] at hparse
    cases hparse
  obtain rfl : k = k' := Nat.le_antisymm (Nat.not_lt.1 (hnot h' h)) (Nat.not_lt.1 (hnot h h'))
  obtain ⟨l, hl, hfault⟩ := h.fault
  obtain ⟨m, hm, hfault'⟩ := h'.fault
  rw [hl] at hm
  cases hm
  rw [hfault] at hfault'
  exact ⟨rfl, Except.error.inj hfault'⟩

theorem Refuses.not_readable {k : Nat} {d : Diagnostic} (h : Refuses source k d) :
    ¬ Readable source := by
  intro hread
  obtain ⟨l, hl, hfault⟩ := h.fault
  obtain ⟨i, hi⟩ := hread l (List.mem_of_getElem? hl)
  rw [hfault] at hi
  cases hi

end Source

/-! ## Programs -/

namespace Program

open Source

variable {source : String}

/-- A source is a program exactly if all its lines say something and no label is defined twice -/
theorem parse_isOk_iff :
    (∃ p, parse source = .ok p) ↔ Readable source ∧ (defined source).Nodup := by
  constructor
  · intro h
    obtain ⟨p, hp⟩ := h
    obtain ⟨is, his, hcode, _⟩ := items_of_parse hp
    refine ⟨fun l hl => readable_of_items his hl, ?_⟩
    have hnodup := p.labels_nodup
    rwa [p.labels_eq, hcode, List.toList_toArray, ← defined_eq his] at hnodup
  · intro h
    obtain ⟨hread, hnodup⟩ := h
    obtain ⟨is, his⟩ := items_of_readable hread
    obtain ⟨p, hp, _⟩ := parse_of_nodup his (defined_eq his ▸ hnodup)
    exact ⟨p, hp⟩

/-- A source with a line that says nothing is refused for the first such line -/
theorem refuses_of_not_readable (h : ¬ Readable source) :
    ∃ k d, Refuses source k d ∧ parse source = .error d := by
  cases hparse : parse source with
  | ok p => exact absurd (parse_isOk_iff.1 ⟨p, hparse⟩).1 h
  | error d =>
    rcases refuses_or_definesAgain hparse with ⟨k, hk⟩ | ⟨_, _, _, _, hagain, _⟩
    · exact ⟨k, d, hk, rfl⟩
    · exact absurd hagain.readable h

theorem parse_of_refuses {k : Nat} {d : Diagnostic} (h : Refuses source k d) :
    parse source = .error d := by
  obtain ⟨_, _, hfirst, hparse⟩ := refuses_of_not_readable h.not_readable
  rw [hparse, (hfirst.unique h).2]

end Program

end RegisterMachine
