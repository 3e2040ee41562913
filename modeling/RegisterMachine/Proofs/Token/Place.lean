import RegisterMachine.Proofs.Token.Render

/-!
# `RegisterMachine.Proofs.Token.Place` — places in what is left of a line

A cursor knows the characters that are left and the byte at which they start, so
it knows the byte at which each of them starts.  These bytes, and the one behind
the last character, are the places it `Reaches`; no place is inside a character.
A span is of the line if both its ends are such places, in this order (`Covers`).

Scanning only goes on from place to place, so all that it finds is covered, and
so is what its faults are about (`Blames`).
-/

namespace RegisterMachine.Token.Cursor

open Text (byteLength)

/-- One cursor stands further on in the line of the other, or at the same place -/
def Leads (k k' : Cursor) : Prop :=
  ∃ before, k.rest = before ++ k'.rest ∧ k'.offset = k.offset + byteLength before

/-- Some character that is left starts at this byte, or the last one ends there -/
def Reaches (k : Cursor) (n : Nat) : Prop :=
  ∃ before behind, k.rest = before ++ behind ∧ n = k.offset + byteLength before

/-- A span of what is left -/
structure Covers (k : Cursor) (s : Span) : Prop where
  start : k.Reaches s.start
  stop : k.Reaches s.stop
  le : s.start ≤ s.stop

/-- A fault of the parser about a span of what is left -/
structure Blames (k : Cursor) (d : Diagnostic) : Prop where
  kind : d.kind = .parse
  covers : ∃ s, d.span = some s ∧ k.Covers s

/-! ## Going on -/

theorem Leads.refl (k : Cursor) : k.Leads k :=
  ⟨[], rfl, rfl⟩

theorem Leads.trans {k k' k'' : Cursor} (h : k.Leads k') (h' : k'.Leads k'') : k.Leads k'' := by
  obtain ⟨before, hrest, hoff⟩ := h
  obtain ⟨before', hrest', hoff'⟩ := h'
  refine ⟨before ++ before', ?_, ?_⟩
  · rw [hrest, hrest', List.append_assoc]
  · rw [hoff', hoff, Text.byteLength_append, Nat.add_assoc]

theorem Leads.reaches {k k' : Cursor} {n : Nat} (h : k.Leads k') (hn : k'.Reaches n) :
    k.Reaches n := by
  obtain ⟨before, hrest, hoff⟩ := h
  obtain ⟨before', behind, hrest', rfl⟩ := hn
  refine ⟨before ++ before', behind, ?_, ?_⟩
  · rw [hrest, hrest', List.append_assoc]
  · rw [hoff, Text.byteLength_append, Nat.add_assoc]

theorem Leads.covers {k k' : Cursor} {s : Span} (h : k.Leads k') (hs : k'.Covers s) :
    k.Covers s :=
  ⟨h.reaches hs.start, h.reaches hs.stop, hs.le⟩

theorem Leads.blames {k k' : Cursor} {d : Diagnostic} (h : k.Leads k') (hd : k'.Blames d) :
    k.Blames d := by
  obtain ⟨hkind, s, hs, hc⟩ := hd
  exact ⟨hkind, s, hs, h.covers hc⟩

theorem Covers.expand {k : Cursor} {s t : Span} (hs : k.Covers s) (ht : k.Covers t) :
    k.Covers (s.expand t) := by
  have hle := hs.le
  refine ⟨?_, ?_, ?_⟩
  · show k.Reaches (min s.start t.start)
    rcases Nat.le_total s.start t.start with h | h
    · rw [Nat.min_eq_left h]; exact hs.start
    · rw [Nat.min_eq_right h]; exact ht.start
  · show k.Reaches (max s.stop t.stop)
    rcases Nat.le_total s.stop t.stop with h | h
    · rw [Nat.max_eq_right h]; exact ht.stop
    · rw [Nat.max_eq_left h]; exact hs.stop
  · show min s.start t.start ≤ max s.stop t.stop
    omega

theorem covers_span (k : Cursor) : k.Covers k.span :=
  ⟨⟨[], k.rest, rfl, rfl⟩, ⟨k.rest, [], (List.append_nil _).symm, rfl⟩, Nat.le_add_right _ _⟩

/-! ## Scanning -/

theorem leads_skip (k : Cursor) : k.Leads k.skip :=
  ⟨gap k.rest, (gap_append_skip k.rest).symm, rfl⟩

/-- The lexeme at a cursor, as a span and as a step -/
theorem covers_munch {k : Cursor} {c : Char} {cs : List Char} (h : k.rest = c :: cs) :
    k.Covers ⟨k.offset, k.offset + byteLength (munch c cs).text⟩ ∧
      k.Leads ⟨(munch c cs).rest, k.offset + byteLength (munch c cs).text⟩ := by
  have hsplit : k.rest = (munch c cs).text ++ (munch c cs).rest := by rw [munch_append, h]
  exact ⟨⟨⟨[], k.rest, rfl, rfl⟩, ⟨_, _, hsplit, rfl⟩, Nat.le_add_right _ _⟩, _, hsplit, rfl⟩

theorem leads_next {k k' : Cursor} {a : Option (Except Diagnostic Token)}
    (h : k.next = (a, k')) : k.Leads k' := by
  rw [next] at h
  split at h
  · cases h
    exact leads_skip k
  · rename_i c cs hrest
    cases h
    exact (leads_skip k).trans (covers_munch hrest).2

/-- A token covers a span that ends where the cursor behind it stands -/
theorem covers_of_next {k k' : Cursor} {t : Token} (h : k.next = (some (.ok t), k')) :
    k.Covers t.span := by
  rw [next] at h
  split at h
  · cases h
  · rename_i c cs hrest
    cases hkind : (munch c cs).kind? with
    | none => simp only [hkind] at h; cases h
    | some kind =>
      simp only [hkind] at h
      cases h
      exact (leads_skip k).covers (covers_munch hrest).1

theorem blames_of_next {k k' : Cursor} {d : Diagnostic} (h : k.next = (some (.error d), k')) :
    k.Blames d := by
  rw [next] at h
  split at h
  · cases h
  · rename_i c cs hrest
    cases hkind : (munch c cs).kind? with
    | none =>
      simp only [hkind] at h
      cases h
      exact ⟨rfl, _, rfl, (leads_skip k).covers (covers_munch hrest).1⟩
    | some kind => simp only [hkind] at h; cases h

/-- All tokens that are left are covered, or else there is a fault about a span that is -/
theorem covers_tokens (k : Cursor) :
    (∀ ts, k.tokens = .ok ts → ∀ t ∈ ts, k.Covers t.span) ∧
      ∀ d, k.tokens = .error d → k.Blames d := by
  -- on what is left to scan: an answer leaves less of it
  induction hn : k.rest.length using Nat.strongRecOn generalizing k with
  | _ n ih =>
    subst hn
    match hnext : k.next with
    | (none, k') =>
      rw [tokens_of_none hnext]
      refine ⟨?_, ?_⟩
      · rintro ts hts t ht
        cases hts
        cases ht
      · intro d hd
        cases hd
    | (some (.error e), k') =>
      rw [tokens_of_error hnext]
      refine ⟨?_, ?_⟩
      · intro ts hts
        cases hts
      · intro d hd
        cases hd
        exact blames_of_next hnext
    | (some (.ok u), k') =>
      rw [tokens_of_ok hnext]
      obtain ⟨hok, herror⟩ := ih _ (next_shorter hnext) k' rfl
      have hleads := leads_next hnext
      refine ⟨?_, ?_⟩
      · intro ts hts t ht
        obtain ⟨us, hus, h⟩ := Except.bind_eq_ok_iff.1 hts
        cases h
        rcases List.mem_cons.1 ht with rfl | ht
        · exact covers_of_next hnext
        · exact hleads.covers (hok us hus t ht)
      · intro d hd
        rcases Except.bind_eq_error_iff.1 hd with hd | ⟨_, _, hd⟩
        · exact hleads.blames (herror d hd)
        · cases hd

end RegisterMachine.Token.Cursor
