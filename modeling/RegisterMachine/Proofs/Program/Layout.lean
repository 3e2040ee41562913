import RegisterMachine.Proofs.Line.Layout
import RegisterMachine.Proofs.Machine.Agreement
import RegisterMachine.Proofs.Program.Items
import RegisterMachine.Proofs.Source.Lines

/-!
# `RegisterMachine.Proofs.Program.Layout` — sources with other blanks and comments

Every line of a source may be given other blanks at its ends, a carriage return among
them, and another comment (`Source.Relaid`).  The new lines are again the lines of a
source, because nothing that is put around them has a newline in it.  They stand at
other places, but they say what the old ones said, one by one (`rel_items`), and where
instructions stand matters neither to their labels nor to a run.  So the program is
the same, or the fault has the same words (`parse_relaid`).
-/

namespace RegisterMachine

/-- The same complaint, wherever it is -/
structure Diagnostic.SameText (d d' : Diagnostic) : Prop where
  kind : d.kind = d'.kind
  message : d.message = d'.message

theorem Diagnostic.Alike.sameText {R : Span → Span → Prop} {d d' : Diagnostic} (h : d.Alike R d') :
    d.SameText d' :=
  ⟨h.kind, h.message⟩

namespace Line

theorem Trailing.no_newline {cs behind : List Char} (h : Trailing cs behind) : '\n' ∉ behind :=
  Token.no_newline_of_gap h.gap

theorem Relaid.no_newline {cs cs' : List Char} (h : Relaid cs cs') (hcs : '\n' ∉ cs) :
    '\n' ∉ cs' := by
  obtain ⟨before, behind, rfl, hbefore, hbehind⟩ := h
  simp [hbefore.no_newline, hcs, hbehind.no_newline]

/-- Wherever the two lines stand, they say the same or are refused for the same reason -/
theorem rel_parse_of_relaid {cs cs' : List Char} (h : Relaid cs cs') (hcs : '\n' ∉ cs)
    (offset offset' : Nat) :
    Except.Rel Diagnostic.SameText Eq (parse ⟨String.ofList cs, offset⟩)
      (parse ⟨String.ofList cs', offset'⟩) := by
  obtain ⟨before, behind, rfl, hbefore, hbehind⟩ := h
  have hframed : Token.Cursor.Framed offset (offset' + Text.byteLength before) before behind
      (start ⟨String.ofList cs, offset⟩)
      (start ⟨String.ofList (before ++ (cs ++ behind)), offset'⟩) := by
    refine ⟨?_, hbefore, hbehind.gap, ?_, Nat.add_comm _ _⟩
    · show (String.ofList _).toList = before ++ ((String.ofList cs).toList ++ behind)
      rw [String.toList_ofList, String.toList_ofList]
    · show '\n' ∉ (String.ofList cs).toList
      rwa [String.toList_ofList]
  have htrailing : Trailing (String.ofList cs).toList behind := by
    rwa [String.toList_ofList]
  exact (alike_parse hframed htrailing).mono (fun _ _ hd => hd.sameText) fun _ _ hi => hi

end Line

/-! ## Sources -/

namespace Source

/-- The other source is made of the lines of this one, each with blanks around it and perhaps a
comment behind them -/
def Relaid (source source' : String) : Prop :=
  ∃ l ls, source'.toList = join l ls ∧
    List.Forall₂ Line.Relaid ((cut source.toList).1 :: (cut source.toList).2) (l :: ls)

/-- What stands somewhere and says the same -/
def SameItem (x x' : Instruction × Span) : Prop :=
  x.1 = x'.1

theorem rel_number {ls ls' : List (List Char)} (h : List.Forall₂ Line.Relaid ls ls')
    (hls : ∀ m ∈ ls, '\n' ∉ m) (offset offset' : Nat) :
    List.Forall₂ (fun l l' : Line => Except.Rel Diagnostic.SameText Eq l.parse l'.parse)
      (number offset ls) (number offset' ls') := by
  induction h generalizing offset offset' with
  | nil => exact .nil
  | cons hm _ ih =>
    refine .cons (Line.rel_parse_of_relaid hm (hls _ List.mem_cons_self) offset offset') ?_
    exact ih (fun m hmem => hls m (List.mem_cons_of_mem _ hmem)) _ _

/-- The lines of the new source are the new lines -/
theorem Relaid.forall₂_cut {source source' : String} (h : Relaid source source') :
    List.Forall₂ Line.Relaid ((cut source.toList).1 :: (cut source.toList).2)
      ((cut source'.toList).1 :: (cut source'.toList).2) := by
  obtain ⟨l, ls, hjoin, hlines⟩ := h
  have hnewline : ∀ m ∈ l :: ls, '\n' ∉ m := by
    intro m hm
    obtain ⟨k, hk, rfl⟩ := List.mem_iff_getElem.1 hm
    have hlength := hlines.length_eq
    have hold := List.getElem_mem (hlength ▸ hk)
    exact (hlines.get (hlength ▸ hk) hk).no_newline (not_mem_cut source.toList _ hold)
  rw [hjoin, cut_join hnewline]
  exact hlines

theorem rel_items {source source' : String} (h : Relaid source source') :
    List.Forall₂ (Except.Rel Diagnostic.SameText SameItem) (items source) (items source') := by
  have hlines := rel_number h.forall₂_cut (not_mem_cut source.toList) 0 0
  rw [items, items, List.forall₂_map_left_iff, List.forall₂_map_right_iff]
  refine hlines.imp ?_
  intro l l' hparse
  exact hparse.map fun _ _ hi => hi

end Source

/-! ## Programs -/

namespace Program

/-- Where instructions stand does not matter to their labels -/
theorem rel_assemble {code code' : Array Instruction} {spans spans' : Array Span}
    (hcode : code = code') (fit : spans.size = 0 ∨ spans.size = code.size)
    (fit' : spans'.size = 0 ∨ spans'.size = code'.size) :
    Except.Rel Diagnostic.SameText (fun p q => p.code = q.code) (assemble code spans fit)
      (assemble code' spans' fit') := by
  subst hcode
  have hnodup : ∀ {spans : Array Span} {fit : spans.size = 0 ∨ spans.size = code.size}
      {p : Program}, assemble code spans fit = .ok p →
      ((labelTable code.toList).map Prod.fst).Nodup := by
    intro spans fit p hp
    rw [← (of_assemble hp).1, ← p.labels_eq]
    exact p.labels_nodup
  cases hp : assemble code spans fit with
  | ok p =>
    obtain ⟨q, hq⟩ := assemble_of_nodup fit' (hnodup hp)
    rw [hq]
    exact .ok ((of_assemble hp).1.trans (of_assemble hq).1.symm)
  | error d =>
    obtain ⟨name, index, hrepeated, rfl⟩ := repeated?_of_assemble hp
    cases hq : assemble code spans' fit' with
    | ok q =>
      obtain ⟨p, hp'⟩ := assemble_of_nodup fit (hnodup hq)
      rw [hp] at hp'
      cases hp'
    | error d' =>
      obtain ⟨name', index', hrepeated', rfl⟩ := repeated?_of_assemble hq
      rw [hrepeated] at hrepeated'
      cases hrepeated'
      exact .error ⟨rfl, rfl⟩

theorem rel_parse {source source' : String} (h : Source.Relaid source source') :
    Except.Rel Diagnostic.SameText (fun p q => p.code = q.code) (parse source)
      (parse source') := by
  refine (Except.rel_mapM_id (Source.rel_items h)).bind ?_
  intro items items' hitems
  refine rel_assemble ?_ _ _
  have hfst : items.map Prod.fst = items'.map Prod.fst := by
    induction hitems with
    | nil => rfl
    | cons hx _ ih => rw [List.map_cons, List.map_cons, ih, show _ = _ from hx]
  rw [hfst]

/-- Blanks around lines and comments behind them do not matter.  A source and the same source
with others are both accepted or both refused.  Then the programs have the same instructions
and labels, and under any limit the same runs but for where a fault is; or else the complaints
have the same kind and message -/
theorem parse_relaid {source source' : String} (h : Source.Relaid source source') :
    ((∃ p, parse source = .ok p) ↔ ∃ q, parse source' = .ok q) ∧
    (∀ p, parse source = .ok p → ∃ q, parse source' = .ok q ∧ q.code = p.code ∧
      q.labels = p.labels ∧ ∀ limit, Option.Rel Agree (p.run limit) (q.run limit)) ∧
    ∀ d, parse source = .error d →
      ∃ d', parse source' = .error d' ∧ d'.kind = d.kind ∧ d'.message = d.message := by
  have hrel := rel_parse h
  generalize parse source = r at hrel ⊢
  generalize parse source' = r' at hrel ⊢
  cases hrel with
  | @ok p q hcode =>
    refine ⟨⟨fun _ => ⟨q, rfl⟩, fun _ => ⟨p, rfl⟩⟩, ?_, nofun⟩
    intro p' hp'
    cases hp'
    exact ⟨q, rfl, hcode.symm, labels_congr hcode.symm, run_congr hcode⟩
  | @error d d' hd =>
    refine ⟨⟨nofun, nofun⟩, nofun, ?_⟩
    intro e he
    cases he
    exact ⟨d', rfl, hd.kind.symm, hd.message.symm⟩

/-- A message with a semicolon in its quotes, and a comment with a quote in it put behind it -/
theorem parse_relaid_message :
    Source.Relaid "msg 'a;b'\nend" "\tmsg 'a;b' ; it's\r\nend\r" ∧
    ∃ p q : Program, Program.parse "msg 'a;b'\nend" = .ok p ∧
      Program.parse "\tmsg 'a;b' ; it's\r\nend\r" = .ok q ∧
      p.code = #[.message "'a;b'", .halt] ∧ q.code = p.code ∧ q.labels = p.labels := by
  have hcut : Source.cut "msg 'a;b'\nend".toList = ("msg 'a;b'".toList, ["end".toList]) := by
    decide
  have hmsg : Line.Relaid "msg 'a;b'".toList "\tmsg 'a;b' ; it's\r".toList :=
    ⟨['\t'], [' '] ++ ';' :: " it's\r".toList, by decide, by simp [Token.Blank, Token.isBlank],
      .comment (by simp [Token.Blank, Token.isBlank]) (by unfold Line.Balanced; decide) (by decide)⟩
  have hend : Line.Relaid "end".toList "end\r".toList :=
    ⟨[], ['\r'], by decide, .nil, .blanks (by simp [Token.Blank, Token.isBlank])⟩
  have h : Source.Relaid "msg 'a;b'\nend" "\tmsg 'a;b' ; it's\r\nend\r" := by
    refine ⟨"\tmsg 'a;b' ; it's\r".toList, ["end\r".toList], by decide, ?_⟩
    rw [hcut]
    exact .cons hmsg (.cons hend .nil)
  have hp : Program.parse "msg 'a;b'\nend" = .ok
    ⟨#[.message "'a;b'", .halt], #[⟨0, 9⟩, ⟨10, 13⟩], [], .inr rfl, rfl, by decide⟩ := by
    with_unfolding_all rfl
  obtain ⟨q, hq, hcode, hlabels, _⟩ := (parse_relaid h).2.1 _ hp
  exact ⟨h, _, q, hp, hq, rfl, hcode, hlabels⟩

end Program

end RegisterMachine
