import RegisterMachine.Proofs.Machine.Arithmetic
import RegisterMachine.Proofs.Machine.Turn

/-!
# `RegisterMachine.Proofs.Machine.Commutation` — operations in another order

An operation reads its source and its target and writes its target.  Two are independent
if neither writes what the other reads or writes; both may read one register.

    x := x + z ; y := y * z     in either order
    x := x + z ; z := 1         not so, the second has the source of the first

What an operation comes to depends on the registers that it reads (`evaluate_of_agree`), so
of two that are independent each comes to what it would alone (`execAll_pair_iff`), and the
store has no memory of which was written first (`Registers.insert_comm`).  Hence any number of
operations that are pairwise independent may be put in any order (`execAll_perm`).

This is about success.  Of two that fail alone the first is the one that is blamed.
-/

namespace RegisterMachine

variable {V : Type} [Cell V]

/-- Neither of two operations writes what the other reads or writes -/
structure Operation.Independent (a : Operation) (x : String) (b : Operation) (y : String) :
    Prop where
  targets : x ≠ y
  left : a.source? ≠ some (.register y)
  right : b.source? ≠ some (.register x)

theorem Operation.Independent.symm {a b : Operation} {x y : String} (h : a.Independent x b y) :
    b.Independent y a x :=
  ⟨h.targets.symm, h.right, h.left⟩

namespace Machine

/-! ## What an operation depends on -/

variable {r r' : Registers V} {target : String} {v w : V}

theorem fetch_of_agree {name : String} (hname : r'.get? name = r.get? name)
    (h : r.fetch name = .ok v) : r'.fetch name = .ok v := by
  rw [Registers.fetch_eq_ok_iff] at h ⊢
  rw [hname, h]

theorem read_of_agree {source : Operand}
    (hsource : ∀ name, source = .register name → r'.get? name = r.get? name)
    (h : read r source = .ok v) : read r' source = .ok v := by
  cases source with
  | literal value => exact h
  | register name => exact fetch_of_agree (hsource name rfl) h

/-- An operation comes to the same where its target and its source hold the same -/
theorem evaluate_of_agree {operation : Operation} (htarget : r'.get? target = r.get? target)
    (hsource : ∀ name, operation.source? = some (.register name) → r'.get? name = r.get? name)
    (h : evaluate r target operation = .ok v) : evaluate r' target operation = .ok v := by
  cases operation with
  | unary op =>
    rw [evaluate_unary] at h ⊢
    obtain ⟨old, hold, hv⟩ := Except.bind_eq_ok_iff.1 h
    exact Except.bind_eq_ok_iff.2 ⟨old, fetch_of_agree htarget hold, hv⟩
  | binary op source =>
    have hread : ∀ {operand : V}, read r source = .ok operand → read r' source = .ok operand :=
      read_of_agree fun name heq => hsource name (congrArg some heq)
    by_cases hop : op = .mov
    · subst hop
      exact hread h
    · rw [evaluate_binary hop] at h ⊢
      obtain ⟨operand, hoperand, h⟩ := Except.bind_eq_ok_iff.1 h
      refine Except.bind_eq_ok_iff.2 ⟨operand, hread hoperand, ?_⟩
      split at h
      · cases h
      rename_i hzero
      rw [if_neg hzero]
      obtain ⟨old, hold, hv⟩ := Except.bind_eq_ok_iff.1 h
      exact Except.bind_eq_ok_iff.2 ⟨old, fetch_of_agree htarget hold, hv⟩

/-- A write to another register than those that an operation reads makes no difference to it -/
theorem evaluate_insert_iff {operation : Operation} {other : String} (htarget : target ≠ other)
    (hsource : operation.source? ≠ some (.register other)) :
    evaluate (r.insert other w) target operation = .ok v ↔
      evaluate r target operation = .ok v := by
  have hname : ∀ name, operation.source? = some (.register name) →
      (r.insert other w).get? name = r.get? name := by
    intro name heq
    rw [Registers.get?_insert, if_neg]
    rintro rfl
    exact hsource heq
  have hget : (r.insert other w).get? target = r.get? target := by
    rw [Registers.get?_insert, if_neg htarget]
  constructor
  · exact evaluate_of_agree hget.symm fun name heq => (hname name heq).symm
  · exact evaluate_of_agree hget hname

/-! ## Operations one after the other -/

/-- Executes instructions one after the other, up to the first that fails -/
def execAll (p : Program) (s : State V) : List Instruction → Execution V
  | [] => .done s
  | i :: is =>
    match exec p s i with
    | .done t => execAll p t is
    | .failed c t => .failed c t

variable {p : Program} {s t : State V}

theorem execAll_cons_iff {i : Instruction} {is : List Instruction} :
    execAll p s (i :: is) = .done t ↔ ∃ u, exec p s i = .done u ∧ execAll p u is = .done t := by
  rw [execAll]
  cases exec p s i with
  | done u => simp
  | failed c u => simp

theorem execAll_append_iff (is js : List Instruction) :
    execAll p s (is ++ js) = .done t ↔
      ∃ u, execAll p s is = .done u ∧ execAll p u js = .done t := by
  induction is generalizing s with
  | nil => simp [execAll]
  | cons i is ih =>
    rw [List.cons_append, execAll_cons_iff]
    simp only [ih, execAll_cons_iff]
    constructor
    · rintro ⟨u, hi, w, his, hjs⟩
      exact ⟨w, ⟨u, hi, his⟩, hjs⟩
    · rintro ⟨w, ⟨u, hi, his⟩, hjs⟩
      exact ⟨u, hi, w, his, hjs⟩

theorem exec_operate_iff {operation : Operation} :
    exec p s (.operate operation target) = .done t ↔
      ∃ v, evaluate s.registers target operation = .ok v ∧
        t = { s with registers := s.registers.insert target v } := by
  rw [exec_eq_done_iff]
  constructor
  · intro h
    cases h with
    | operate hv => exact ⟨_, hv, rfl⟩
  · rintro ⟨v, hv, rfl⟩
    exact .operate hv

variable {a b : Operation} {x y : String}

/-- Of two independent operations, one after the other, each comes to what it would alone -/
theorem execAll_pair_iff (h : a.Independent x b y) :
    execAll p s [.operate a x, .operate b y] = .done t ↔
      ∃ v w, evaluate s.registers x a = .ok v ∧ evaluate s.registers y b = .ok w ∧
        t = { s with registers := (s.registers.insert x v).insert y w } := by
  simp only [execAll_cons_iff, exec_operate_iff]
  constructor
  · rintro ⟨_, ⟨v, hv, rfl⟩, _, ⟨w, hw, rfl⟩, ht⟩
    cases ht
    exact ⟨v, w, hv, (evaluate_insert_iff h.targets.symm h.right).1 hw, rfl⟩
  · rintro ⟨v, w, hv, hw, rfl⟩
    exact ⟨_, ⟨v, hv, rfl⟩, _, ⟨w, (evaluate_insert_iff h.targets.symm h.right).2 hw, rfl⟩, rfl⟩

theorem execAll_swap_iff (h : a.Independent x b y) :
    execAll p s [.operate a x, .operate b y] = .done t ↔
      execAll p s [.operate b y, .operate a x] = .done t := by
  rw [execAll_pair_iff h, execAll_pair_iff h.symm]
  constructor
  · rintro ⟨v, w, hv, hw, rfl⟩
    exact ⟨w, v, hw, hv, by rw [Registers.insert_comm _ h.targets]⟩
  · rintro ⟨w, v, hw, hv, rfl⟩
    exact ⟨v, w, hv, hw, by rw [Registers.insert_comm _ h.targets]⟩

/-- The instruction for an operation and its target -/
def operate (op : Operation × String) : Instruction :=
  .operate op.1 op.2

/-- Operations that are pairwise independent may be put in any order -/
theorem execAll_perm {ops ops' : List (Operation × String)} (hperm : ops.Perm ops')
    (h : ops.Pairwise fun a b => a.1.Independent a.2 b.1 b.2) :
    execAll p s (ops.map operate) = .done t ↔ execAll p s (ops'.map operate) = .done t := by
  -- on the way from one order to the other, which exchanges neighbours
  induction hperm generalizing s with
  | nil => rfl
  | cons op _ ih =>
    simp only [List.map_cons, execAll_cons_iff, ih (List.pairwise_cons.1 h).2]
  | swap b a ops =>
    have hpair : a.1.Independent a.2 b.1 b.2 := (List.pairwise_cons.1 h).1 b List.mem_cons_self
    have hsplit : ∀ a b, execAll p s (List.map operate (a :: b :: ops)) = .done t ↔
        ∃ u, execAll p s [operate a, operate b] = .done u ∧
          execAll p u (ops.map operate) = .done t :=
      fun a b => execAll_append_iff [operate a, operate b] _
    rw [hsplit, hsplit]
    simp only [operate, execAll_swap_iff hpair]
  | trans hfirst _ ih ih' =>
    have hsymm := (hfirst.pairwise_iff fun {_ _} => Operation.Independent.symm).1 h
    exact (ih h).trans (ih' hsymm)

/-- Two independent operations succeed one after the other exactly if they succeed in the other
order, and that is if each of them succeeds alone.  Either order leaves the same state, so that
the registers are listed and shown in the same way -/
theorem operations_commute (p : Program) (s : State Word) {a b : Operation} {x y : String}
    (h : a.Independent x b y) :
    (∀ t, execAll p s [.operate a x, .operate b y] = .done t ↔
      execAll p s [.operate b y, .operate a x] = .done t) ∧
    ((∃ t, execAll p s [.operate a x, .operate b y] = .done t) ↔
      (∃ t, exec p s (.operate a x) = .done t) ∧ ∃ t, exec p s (.operate b y) = .done t) := by
  refine ⟨fun t => execAll_swap_iff h, ?_⟩
  simp only [execAll_pair_iff h, exec_operate_iff]
  constructor
  · rintro ⟨_, v, w, hv, hw, _⟩
    exact ⟨⟨_, v, hv, rfl⟩, _, w, hw, rfl⟩
  · rintro ⟨⟨_, v, hv, _⟩, _, w, hw, _⟩
    exact ⟨_, v, w, hv, hw, rfl⟩

/-- One register is created and another is increased by a number, in either order -/
theorem operations_commute_create :
    ∃ (p : Program) (s t : State Word),
      s.registers = Registers.empty.insert "b" 2 ∧
      Operation.Independent (.binary .mov (.literal 5)) "a" (.binary .add (.literal 1)) "b" ∧
      execAll p s [.operate (.binary .mov (.literal 5)) "a",
        .operate (.binary .add (.literal 1)) "b"] = .done t ∧
      execAll p s [.operate (.binary .add (.literal 1)) "b",
        .operate (.binary .mov (.literal 5)) "a"] = .done t ∧
      t.registers.entries = [("a", 5), ("b", 3)] := by
  let p : Program := ⟨#[], #[], [], .inl rfl, rfl, .nil⟩
  let start : State Word := .initial
  let s := { start with registers := start.registers.insert "b" 2 }
  have h : Operation.Independent (.binary .mov (.literal 5)) "a"
      (.binary .add (.literal 1)) "b" := ⟨by decide, by decide, by decide⟩
  have hdone : execAll p s [.operate (.binary .mov (.literal 5)) "a",
      .operate (.binary .add (.literal 1)) "b"] =
      .done { s with registers := (s.registers.insert "a" 5).insert "b" 3 } := rfl
  exact ⟨p, s, _, rfl, h, hdone, ((operations_commute p s h).1 _).1 hdone, rfl⟩

end Machine

end RegisterMachine
