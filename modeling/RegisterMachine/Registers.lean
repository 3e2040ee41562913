import RegisterMachine.Cell

/-!
# `RegisterMachine.Registers` — the store of named registers

A register comes into being with its first write.  The store lists the
registers that exist in ascending order of their names, and carries the proof
of it, so a store has one form only: two stores that hold the same are equal
(`ext_get?`), whatever the order in which they were filled.  Names are compared
by their code points, which is the order of their UTF-8 bytes.

    operation          law
    empty              get? = none
    insert name v      get? m = v at m = name, as before elsewhere      (`get?_insert`)
-/

namespace RegisterMachine

/-! ## Association lists in ascending order -/

namespace Entries

variable {V : Type}

/-- The names ascend, so none stands twice -/
abbrev Ascending (es : List (String × V)) : Prop :=
  es.Pairwise fun a b => a.1 < b.1

/-- The list with the value of one name set, the name put in its place if it is new -/
def insert (name : String) (v : V) : List (String × V) → List (String × V)
  | [] => [(name, v)]
  | (n, w) :: es =>
    if name = n then (name, v) :: es
    else if name < n then (name, v) :: (n, w) :: es
    else (n, w) :: insert name v es

/-- The names after setting one are the old ones and that one -/
theorem mem_insert {name m : String} {v w : V} {es : List (String × V)}
    (h : (m, w) ∈ insert name v es) : m = name ∨ (m, w) ∈ es := by
  induction es with
  | nil =>
    simp only [insert, List.mem_singleton, Prod.mk.injEq] at h
    exact .inl h.1
  | cons e es ih =>
    obtain ⟨n, x⟩ := e
    rw [insert] at h
    split at h
    · rcases List.mem_cons.1 h with h | h
      · exact .inl (Prod.mk.inj h).1
      · exact .inr (List.mem_cons_of_mem _ h)
    · split at h
      · rcases List.mem_cons.1 h with h | h
        · exact .inl (Prod.mk.inj h).1
        · exact .inr h
      · rcases List.mem_cons.1 h with h | h
        · exact .inr (h ▸ List.mem_cons_self)
        · exact (ih h).imp id (List.mem_cons_of_mem _)

theorem ascending_insert (name : String) (v : V) {es : List (String × V)} (h : Ascending es) :
    Ascending (insert name v es) := by
  induction es with
  | nil => exact List.pairwise_singleton _ _
  | cons e es ih =>
    obtain ⟨n, w⟩ := e
    obtain ⟨hhead, htail⟩ := List.pairwise_cons.1 h
    rw [insert]
    split
    · rename_i heq
      exact List.pairwise_cons.2 ⟨fun e he => heq ▸ hhead e he, htail⟩
    · split
      · rename_i hlt
        refine List.pairwise_cons.2 ⟨fun e he => ?_, h⟩
        rcases List.mem_cons.1 he with rfl | he
        · exact hlt
        · exact String.lt_trans hlt (hhead e he)
      · rename_i hne hge
        refine List.pairwise_cons.2 ⟨fun e he => ?_, ih htail⟩
        rcases mem_insert (m := e.1) (w := e.2) he with hn | he
        · have hlt : n < name := Decidable.byContradiction fun hlt =>
            hne (String.le_antisymm (String.not_lt.1 hlt) (String.not_lt.1 hge))
          exact hn ▸ hlt
        · exact hhead e he

theorem lookup_cons_eq (m n : String) (w : V) (es : List (String × V)) :
    List.lookup m ((n, w) :: es) = if m = n then some w else es.lookup m := by
  rw [List.lookup_cons]
  by_cases h : m = n
  · simp [h]
  · simp [h, beq_false_of_ne h]

theorem lookup_insert (name : String) (v : V) (m : String) (es : List (String × V)) :
    (insert name v es).lookup m = if m = name then some v else es.lookup m := by
  induction es with
  | nil => exact lookup_cons_eq m name v []
  | cons e es ih =>
    obtain ⟨n, w⟩ := e
    rw [insert]
    split
    · rename_i heq
      subst heq
      rw [lookup_cons_eq, lookup_cons_eq]
      by_cases h : m = name <;> simp [h]
    · rename_i hne
      split
      · exact lookup_cons_eq m name v _
      · rw [lookup_cons_eq, lookup_cons_eq, ih]
        by_cases h : m = n
        · subst h
          simp [Ne.symm hne]
        · simp [h]

theorem lookup_eq_none_of_lt {name : String} {es : List (String × V)}
    (h : ∀ e ∈ es, name < e.1) : es.lookup name = none := by
  induction es with
  | nil => rfl
  | cons e es ih =>
    have hne : (name == e.1) = false := by
      have hlt := h e List.mem_cons_self
      exact beq_false_of_ne fun heq => String.lt_irrefl _ (heq ▸ hlt)
    rw [List.lookup_cons, hne]
    exact ih fun e he => h e (List.mem_cons_of_mem _ he)

/-- Of two lists that hold the same, neither begins below the other -/
theorem not_lt_of_lookup_eq {n m : String} {v w : V} {es fs : List (String × V)}
    (hf : Ascending ((m, w) :: fs))
    (h : ∀ k, List.lookup k ((n, v) :: es) = List.lookup k ((m, w) :: fs)) : ¬ n < m := by
  intro hlt
  have hnone : List.lookup n ((m, w) :: fs) = none := by
    refine lookup_eq_none_of_lt fun f hmem => ?_
    rcases List.mem_cons.1 hmem with rfl | hmem
    · exact hlt
    · exact String.lt_trans hlt ((List.pairwise_cons.1 hf).1 f hmem)
  have hsome := h n
  rw [hnone, lookup_cons_eq, if_pos rfl] at hsome
  cases hsome

/-- Ascending lists that hold the same under every name are the same list -/
theorem ext_lookup {es fs : List (String × V)} (he : Ascending es) (hf : Ascending fs)
    (h : ∀ m, es.lookup m = fs.lookup m) : es = fs := by
  induction es generalizing fs with
  | nil =>
    cases fs with
    | nil => rfl
    | cons f fs =>
      obtain ⟨m, w⟩ := f
      simpa [lookup_cons_eq] using h m
  | cons e es ih =>
    cases fs with
    | nil =>
      obtain ⟨n, v⟩ := e
      simpa [lookup_cons_eq] using h n
    | cons f fs =>
      obtain ⟨n, v⟩ := e
      obtain ⟨m, w⟩ := f
      obtain ⟨hn, he'⟩ := List.pairwise_cons.1 he
      obtain ⟨hm, hf'⟩ := List.pairwise_cons.1 hf
      have hnm : n = m := String.le_antisymm
        (String.not_lt.1 (not_lt_of_lookup_eq he fun k => (h k).symm))
        (String.not_lt.1 (not_lt_of_lookup_eq hf h))
      subst hnm
      have hv : v = w := by simpa [lookup_cons_eq] using h n
      subst hv
      congr 1
      refine ih he' hf' fun k => ?_
      by_cases hk : k = n
      · subst hk
        rw [lookup_eq_none_of_lt hn, lookup_eq_none_of_lt hm]
      · simpa [lookup_cons_eq, hk] using h k

end Entries

/-! ## The store -/

/-- The registers that exist, by ascending name -/
structure Registers (V : Type) where
  entries : List (String × V)
  ascending : Entries.Ascending entries

namespace Registers

variable {V : Type}

/-- The store without registers -/
def empty : Registers V :=
  ⟨[], .nil⟩

instance : Inhabited (Registers V) :=
  ⟨empty⟩

instance [DecidableEq V] : DecidableEq (Registers V) := fun r s =>
  decidable_of_iff (r.entries = s.entries) (by cases r; cases s; simp)

/-- The content of a register, if it exists -/
def get? (r : Registers V) (name : String) : Option V :=
  r.entries.lookup name

/-- The store after a write -/
def insert (r : Registers V) (name : String) (v : V) : Registers V :=
  ⟨Entries.insert name v r.entries, Entries.ascending_insert name v r.ascending⟩

/-- The store filled by writes from the left to the right -/
def ofList (writes : List (String × V)) : Registers V :=
  writes.foldl (fun r (name, v) => r.insert name v) empty

/-- The number of registers -/
def size (r : Registers V) : Nat :=
  r.entries.length

theorem get?_insert (r : Registers V) (name : String) (v : V) (m : String) :
    (r.insert name v).get? m = if m = name then some v else r.get? m :=
  Entries.lookup_insert name v m r.entries

/-- Stores that hold the same are the same -/
theorem ext_get? {r s : Registers V} (h : ∀ m, r.get? m = s.get? m) : r = s := by
  obtain ⟨es, he⟩ := r
  obtain ⟨fs, hf⟩ := s
  cases Entries.ext_lookup he hf h
  rfl

/-- Writes to two registers may be made in either order -/
theorem insert_comm (r : Registers V) {name other : String} (h : name ≠ other) (v w : V) :
    (r.insert name v).insert other w = (r.insert other w).insert name v := by
  apply ext_get?
  intro m
  simp only [get?_insert]
  by_cases hm : m = other
  · subst hm
    rw [if_pos rfl, if_neg h.symm, if_pos rfl]
  · rw [if_neg hm, if_neg hm]

/-! ## Contents as integers -/

/-- The registers with their values, by ascending name -/
def contents [Cell V] (r : Registers V) : List (String × Int) :=
  r.entries.map fun (name, v) => (name, Cell.toInt v)

/-- Contents between braces, in the order in which they are listed -/
def listing (contents : List (String × Int)) : String :=
  "\x7b" ++ String.intercalate ", " (contents.map fun (name, n) => name ++ ": " ++ Decimal.text n)
    ++ "\x7d"

/-- The store as it is shown in a message -/
def text [Cell V] (r : Registers V) : String :=
  listing r.contents

end Registers

end RegisterMachine
