import RegisterMachine.Proofs.Text.ByteOrder
import RegisterMachine.Registers

/-!
# `RegisterMachine.Proofs.Registers.Entries` — the entries of a store, one by one

A store of registers is a list of entries.  As their names ascend, none stands twice, so
the entries are all that a look-up can find (`Registers.mem_entries_iff`); and they stand
in the order of the bytes of their names (`Registers.pairwise_bytes`).  A write adds the name
of its register to those that exist and takes none away (`Registers.mem_names_insert`).
-/

namespace RegisterMachine

/-- Where no name stands twice, a look-up finds every entry -/
theorem Entries.lookup_eq_some_iff_mem {V : Type} {es : List (String × V)}
    (hnodup : (es.map Prod.fst).Nodup) {name : String} {v : V} :
    es.lookup name = some v ↔ (name, v) ∈ es := by
  rw [List.lookup_eq_some_iff]
  constructor
  · intro h
    obtain ⟨front, back, rfl, _⟩ := h
    exact List.mem_append_right _ List.mem_cons_self
  · intro h
    obtain ⟨front, back, rfl⟩ := List.append_of_mem h
    refine ⟨front, back, rfl, ?_⟩
    intro e he
    rw [List.map_append, List.nodup_append] at hnodup
    have hne := hnodup.2.2 e.1 (List.mem_map_of_mem he) name List.mem_cons_self
    exact bne_iff_ne.2 hne.symm

namespace Registers

variable {V : Type} (r : Registers V)

/-- The names of the registers that exist, by ascending name -/
def names : List String :=
  r.entries.map Prod.fst

theorem nodup_names : r.names.Nodup := by
  refine List.pairwise_map.2 (r.ascending.imp ?_)
  intro e f hlt heq
  exact String.lt_irrefl _ (heq ▸ hlt)

/-- A register is found exactly if it has an entry -/
theorem mem_entries_iff {name : String} {v : V} :
    (name, v) ∈ r.entries ↔ r.get? name = some v :=
  (Entries.lookup_eq_some_iff_mem r.nodup_names).symm

/-- The entries are in the order of the bytes of their names -/
theorem pairwise_bytes :
    r.entries.Pairwise fun e f => Text.bytes e.1 < Text.bytes f.1 :=
  r.ascending.imp Text.lt_iff_bytes_lt.1

variable {r}

theorem mem_names_iff {name : String} : name ∈ r.names ↔ r.get? name ≠ none := by
  constructor
  · intro hmem hnone
    obtain ⟨e, he, rfl⟩ := List.mem_map.1 hmem
    exact bne_iff_ne.1 (List.lookup_eq_none_iff.1 hnone e he) rfl
  · intro hsome
    obtain ⟨v, hv⟩ := Option.ne_none_iff_exists'.1 hsome
    exact List.mem_map_of_mem (r.mem_entries_iff.2 hv)

theorem not_mem_names_iff {name : String} : name ∉ r.names ↔ r.get? name = none := by
  rw [mem_names_iff, Classical.not_not]

theorem mem_names_insert {name m : String} {v : V} :
    m ∈ (r.insert name v).names ↔ m = name ∨ m ∈ r.names := by
  rw [mem_names_iff, mem_names_iff, get?_insert]
  split <;> simp [*]

end Registers

end RegisterMachine
