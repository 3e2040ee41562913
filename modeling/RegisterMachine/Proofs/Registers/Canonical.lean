import Mathlib.Data.Finset.Card
import Mathlib.Data.List.Induction
import RegisterMachine.Proofs.Registers.Entries
import RegisterMachine.Registers.Fetch

/-!
# `RegisterMachine.Proofs.Registers.Canonical` — what a store keeps of the writes to it

A store is filled by writes, from the empty one on.  What it keeps of them is the last one to
each register: neither the order in which the registers came into being nor what they held
before leaves a trace.

    the store is asked for      the writes answer
    a register                  the last write to it, if there is one     (`get?_ofList_iff`)
    the names                   all that were written to                  (`mem_names_ofList`)
    the size                    how many different ones they are          (`size_ofList`)

A write goes one of two ways.  Where the register exists the write takes the place of its entry,
and where it does not the write is one entry more (`entries_insert`).  Either way the other
entries stay as they are and the names ascend, so two stores that hold the same are one and the
same store (`ofList_eq_iff`), and they are listed alike and complain alike.
-/

namespace RegisterMachine

variable {V : Type}

/-! ## One write -/

/-- A write stands between two parts of the old list.  Between these there was the old entry of
its name, or nothing -/
theorem Entries.exists_insert (name : String) (v : V) {es : List (String × V)}
    (h : Ascending es) :
    ∃ front back, insert name v es = front ++ (name, v) :: back ∧
      es = front ++ ((es.lookup name).toList.map (name, ·) ++ back) := by
  induction es with
  | nil => exact ⟨[], [], rfl, rfl⟩
  | cons e es ih =>
    obtain ⟨n, w⟩ := e
    obtain ⟨hhead, htail⟩ := List.pairwise_cons.1 h
    rw [insert, lookup_cons_eq]
    by_cases heq : name = n
    · subst heq
      rw [if_pos rfl, if_pos rfl]
      exact ⟨[], es, rfl, rfl⟩
    · rw [if_neg heq, if_neg heq]
      by_cases hlt : name < n
      · -- the names behind a greater one are greater still, so this one is new
        have hnone : es.lookup name = none :=
          lookup_eq_none_of_lt fun e he => String.lt_trans hlt (hhead e he)
        rw [if_pos hlt, hnone]
        exact ⟨[], (n, w) :: es, rfl, rfl⟩
      · obtain ⟨front, back, hinsert, hes⟩ := ih htail
        rw [if_neg hlt, hinsert]
        exact ⟨(n, w) :: front, back, rfl, congrArg ((n, w) :: ·) hes⟩

namespace Registers

/-- A write takes the place of the entry of its register where there is one, and is put between
the others where there is none -/
theorem entries_insert (r : Registers V) (name : String) (v : V) :
    ∃ front back, (r.insert name v).entries = front ++ (name, v) :: back ∧
      r.entries = front ++ ((r.get? name).toList.map (name, ·) ++ back) :=
  Entries.exists_insert name v r.ascending

/-! ## Any number of writes -/

/-- The last of some writes to a register -/
def LastWrite (writes : List (String × V)) (name : String) (v : V) : Prop :=
  ∃ before after, writes = before ++ (name, v) :: after ∧ ∀ later ∈ after, later.1 ≠ name

variable {writes writes' : List (String × V)} {name : String} {v : V}

/-- The last write to a register is the first that is found on the way back -/
theorem lookup_reverse_eq_some_iff :
    writes.reverse.lookup name = some v ↔ LastWrite writes name v := by
  rw [List.lookup_eq_some_iff]
  constructor
  · rintro ⟨later, earlier, hsplit, hlater⟩
    refine ⟨earlier.reverse, later.reverse, ?_, ?_⟩
    · rw [List.reverse_eq_iff.1 hsplit, List.reverse_append, List.reverse_cons,
        List.append_assoc, List.singleton_append]
    · intro write hwrite
      exact (bne_iff_ne.1 (hlater write (List.mem_reverse.1 hwrite))).symm
  · rintro ⟨before, after, rfl, hafter⟩
    refine ⟨after.reverse, before.reverse, ?_, ?_⟩
    · rw [List.reverse_append, List.reverse_cons, List.append_assoc, List.singleton_append]
    · intro write hwrite
      exact bne_iff_ne.2 (hafter write (List.mem_reverse.1 hwrite)).symm

theorem ofList_concat (writes : List (String × V)) (name : String) (v : V) :
    ofList (writes ++ [(name, v)]) = (ofList writes).insert name v :=
  List.foldl_concat ..

theorem get?_ofList (writes : List (String × V)) (name : String) :
    (ofList writes).get? name = writes.reverse.lookup name := by
  induction writes using List.reverseRecOn with
  | nil => rfl
  | append_singleton writes write ih =>
    rw [ofList_concat, get?_insert, ih, List.reverse_concat, Entries.lookup_cons_eq]

/-- A register holds what was written to it last -/
theorem get?_ofList_iff : (ofList writes).get? name = some v ↔ LastWrite writes name v := by
  rw [get?_ofList, lookup_reverse_eq_some_iff]

/-- The registers that exist are those that were written to -/
theorem mem_names_ofList : name ∈ (ofList writes).names ↔ name ∈ writes.map Prod.fst := by
  induction writes using List.reverseRecOn with
  | nil => rfl
  | append_singleton writes write ih =>
    rw [ofList_concat, mem_names_insert, ih, List.map_append, List.mem_append, or_comm]
    exact or_congr_right List.mem_singleton.symm

theorem size_ofList (writes : List (String × V)) :
    (ofList writes).size = (writes.map Prod.fst).toFinset.card := by
  have hnames : (ofList writes).names.toFinset = (writes.map Prod.fst).toFinset := by
    ext name
    rw [List.mem_toFinset, List.mem_toFinset, mem_names_ofList]
  calc (ofList writes).size
    _ = (ofList writes).names.length := (List.length_map _).symm
    _ = (ofList writes).names.toFinset.card :=
        (List.toFinset_card_of_nodup (nodup_names _)).symm
    _ = (writes.map Prod.fst).toFinset.card := by rw [hnames]

/-- Writes make the same store exactly if the last of them to each register is the same -/
theorem ofList_eq_iff : ofList writes = ofList writes' ↔
    ∀ name v, LastWrite writes name v ↔ LastWrite writes' name v := by
  simp only [← get?_ofList_iff]
  constructor
  · intro h name v
    rw [h]
  · intro h
    exact ext_get? fun name => Option.ext (h name)

/-- A read of a register that does not exist fails with its name and shows the whole store -/
theorem fetch_of_get?_none [Cell V] {r : Registers V} (h : r.get? name = none) :
    ∃ c, r.fetch name = .error c ∧ c.kind = .uninitializedRegister ∧
      c.message =
        "Register " ++ Cause.named name ++ " is not initialized, registers: " ++ r.text :=
  ⟨_, fetch_eq_error_iff.2 ⟨h, rfl⟩, rfl, rfl⟩

/-- A store that was filled by writes has an entry for each name that was written to and for no
other, with the last number written to it.  The entries are in the order of the bytes of their
names, and there are as many as there are different names.  A look-up and a read answer with that
number for these names; for any other a look-up answers with nothing, and a read fails with a
message that shows the whole store.  One more write takes the place of the entry of its register,
or is put between the entries if there was none.  And other writes make the same store, which is
shown and complains in the same way, exactly if the last of them to each register is the same -/
theorem store_exact (writes : List (String × Word)) :
    (∀ name, name ∈ (ofList writes).names ↔ name ∈ writes.map Prod.fst) ∧
    (∀ name v, (name, v) ∈ (ofList writes).entries ↔ LastWrite writes name v) ∧
    ((ofList writes).entries.Pairwise fun e f => Text.bytes e.1 < Text.bytes f.1) ∧
    (ofList writes).size = (writes.map Prod.fst).toFinset.card ∧
    (∀ name ∈ writes.map Prod.fst, ∃ v, LastWrite writes name v ∧
      (ofList writes).get? name = some v ∧ (ofList writes).fetch name = .ok v) ∧
    (∀ name ∉ writes.map Prod.fst, (ofList writes).get? name = none ∧
      ∃ c, (ofList writes).fetch name = .error c ∧ c.kind = .uninitializedRegister ∧
        c.message = "Register " ++ Cause.named name ++ " is not initialized, registers: " ++
          (ofList writes).text) ∧
    (∀ name v, ∃ front back,
      (ofList (writes ++ [(name, v)])).entries = front ++ (name, v) :: back ∧
      (ofList writes).entries =
        front ++ (((ofList writes).get? name).toList.map (name, ·) ++ back)) ∧
    ∀ writes', (∀ name v, LastWrite writes name v ↔ LastWrite writes' name v) ↔
      ofList writes = ofList writes' ∧ (ofList writes).text = (ofList writes').text ∧
        ∀ name, (ofList writes).fetch name = (ofList writes').fetch name := by
  refine ⟨fun name => mem_names_ofList, ?_, pairwise_bytes _, size_ofList writes, ?_, ?_, ?_, ?_⟩
  · intro name v
    rw [mem_entries_iff, get?_ofList_iff]
  · intro name hname
    obtain ⟨v, hv⟩ := Option.ne_none_iff_exists'.1 (mem_names_iff.1 (mem_names_ofList.2 hname))
    exact ⟨v, get?_ofList_iff.1 hv, hv, fetch_eq_ok_iff.2 hv⟩
  · intro name hname
    have hnone : (ofList writes).get? name = none :=
      not_mem_names_iff.1 fun hmem => hname (mem_names_ofList.1 hmem)
    exact ⟨hnone, fetch_of_get?_none hnone⟩
  · intro name v
    rw [ofList_concat]
    exact entries_insert (ofList writes) name v
  · intro writes'
    rw [← ofList_eq_iff]
    constructor
    · intro h
      rw [h]
      exact ⟨rfl, rfl, fun _ => rfl⟩
    · intro h
      exact h.1

/-- A name outside the basic plane is listed last, as its bytes say, and its second write counts -/
theorem store_exact_overwritten :
    let writes : List (String × Word) := [("𝐚", 1), ("ﬀ", 2), ("𝐚", 3)]
    let other : List (String × Word) := [("𝐚", 3), ("ﬀ", 2)]
    (ofList writes).entries = [("ﬀ", 2), ("𝐚", 3)] ∧
    "𝐚" ∈ writes.map Prod.fst ∧ (ofList writes).fetch "𝐚" = .ok 3 ∧
    (∀ name v, LastWrite writes name v ↔ LastWrite other name v) ∧ ofList writes = ofList other ∧
    "b" ∉ writes.map Prod.fst ∧ ∃ c, (ofList writes).fetch "b" = .error c ∧
      c.message = "Register 'b' is not initialized, registers: \x7bﬀ: 2, 𝐚: 3\x7d" := by
  intro writes other
  have hentries : (ofList writes).entries = [("ﬀ", 2), ("𝐚", 3)] := rfl
  have hwritten : "𝐚" ∈ writes.map Prod.fst := by decide
  have hunwritten : "b" ∉ writes.map Prod.fst := by decide
  obtain ⟨_, hmem, _, _, hread, hcomplaint, _, hsame⟩ := store_exact writes
  obtain ⟨_, hmem', _⟩ := store_exact other
  have hlast : ∀ name v, LastWrite writes name v ↔ LastWrite other name v :=
    fun name v => (hmem name v).symm.trans (hmem' name v)
  obtain ⟨v, hv, _, hfetch⟩ := hread "𝐚" hwritten
  obtain ⟨_, c, hc, _, hmessage⟩ := hcomplaint "b" hunwritten
  refine ⟨hentries, hwritten, ?_, hlast, ((hsame other).1 hlast).1, hunwritten, c, hc, ?_⟩
  · rw [← hmem, hentries] at hv
    obtain rfl : v = 3 := by simpa using hv
    exact hfetch
  · rw [hmessage]
    rfl

end Registers

end RegisterMachine
