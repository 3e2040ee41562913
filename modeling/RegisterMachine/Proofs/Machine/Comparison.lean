import RegisterMachine.Proofs.Machine.Trace

/-!
# `RegisterMachine.Proofs.Machine.Comparison` — what a conditional jump goes by

Only a comparison sets the flag:

    turn           flag behind it
    comparison     the order of the two numbers that it has read
    all others     the same

So along a run from its start the flag is unset up to the first comparison, and from then on it
is the order of the two numbers that the latest one has read, whatever has become of their
registers since (`Trace.flag_of_unset`, `Trace.flag_of_latest`).  A jump on a condition is taken
exactly if the condition is true of these numbers (`Condition.holds_compare_iff`):

    taken       `p` has the label     goes behind the label
    taken       it has not            fails
    not taken                         goes to the next line, label or not
-/

namespace RegisterMachine

/-- What a jump on the condition says of the two numbers that were compared -/
def Condition.Relates : Condition → Int → Int → Prop
  | .always, _, _ => True
  | .equal, l, r => l = r
  | .notEqual, l, r => l ≠ r
  | .greaterOrEqual, l, r => l ≥ r
  | .greater, l, r => l > r
  | .lessOrEqual, l, r => l ≤ r
  | .less, l, r => l < r

/-- A condition holds of a comparison exactly if it is true of the numbers compared -/
theorem Condition.holds_compare_iff (c : Condition) (l r : Int) :
    c.holds (some (compare l r)) = true ↔ c.Relates l r := by
  rw [holds_some]
  rcases Int.lt_trichotomy l r with hlt | rfl | hgt
  · rw [Int.compare_eq_lt.2 hlt]
    cases c <;> simp [accepts, Relates] <;> omega
  · rw [Int.compare_eq_eq.2 rfl]
    cases c <;> simp [accepts, Relates]
  · rw [Int.compare_eq_gt.2 hgt]
    cases c <;> simp [accepts, Relates] <;> omega

def Instruction.isComparison : Instruction → Bool
  | .compare _ _ => true
  | _ => false

namespace Machine

variable {V : Type} [Cell V] {p : Program} {s t : State V}

/-- The turn has compared the two numbers: it has read them in its state -/
def Turn.Compares (turn : Turn V) (l r : V) : Prop :=
  ∃ left right, turn.instruction = .compare left right ∧
    read turn.state.registers left = .ok l ∧ read turn.state.registers right = .ok r

/-! ## One turn -/

/-- What a turn does to the flag -/
theorem flag_of_dispatch {i : Instruction} (h : dispatch p s i = .ok t) :
    (∃ l r, Turn.Compares ⟨s, i⟩ l r ∧
      t.flag = some (compare (Cell.toInt l) (Cell.toInt r))) ∨
    (i.isComparison = false ∧ t.flag = s.flag) := by
  obtain ⟨u, hu, rfl⟩ := dispatch_eq_ok_iff.1 h
  cases hu with
  | compare hl hr => exact .inl ⟨_, _, ⟨_, _, rfl, hl, hr⟩, rfl⟩
  | comment | label | halt | operate | pass | jump | call | ret | message => exact .inr ⟨rfl, rfl⟩

theorem Turn.Compares.isComparison {turn : Turn V} {l r : V} (h : turn.Compares l r) :
    turn.instruction.isComparison = true := by
  obtain ⟨_, _, hi, _⟩ := h
  rw [hi]
  rfl

/-! ## Runs -/

/-- Without a comparison among the turns the flag is what it was -/
theorem Trace.flag_of_unset {turns : List (Turn V)} (h : Trace p s turns t)
    (hturns : ∀ turn ∈ turns, turn.instruction.isComparison = false) : t.flag = s.flag := by
  induction h with
  | start => rfl
  | @turn turns t u i _ _ hd ih =>
    rw [List.forall_mem_append, List.forall_mem_singleton] at hturns
    rcases flag_of_dispatch hd with ⟨l, r, hcompares, _⟩ | ⟨_, hflag⟩
    · have hi : i.isComparison = true := hcompares.isComparison
      rw [hturns.2] at hi
      cases hi
    · rw [hflag, ih hturns.1]

/-- The flag is the order of the two numbers that the latest comparison has read -/
theorem Trace.flag_of_latest {turns : List (Turn V)} {turn : Turn V} (h : Trace p s turns t)
    (hturn : Latest (fun turn => turn.instruction.isComparison = true) turns turn) :
    ∃ l r, turn.Compares l r ∧ t.flag = some (compare (Cell.toInt l) (Cell.toInt r)) := by
  induction h with
  | start => exact absurd hturn not_latest_nil
  | @turn turns t u i _ _ hd ih =>
    rcases flag_of_dispatch hd with ⟨l, r, hcompares, hflag⟩ | ⟨hi, hflag⟩
    -- the turn that has compared is itself the latest comparison
    · rcases latest_concat_iff.1 hturn with ⟨_, rfl⟩ | ⟨hother, _⟩
      · exact ⟨l, r, hcompares, hflag⟩
      · exact absurd hcompares.isComparison hother
    · rcases latest_concat_iff.1 hturn with ⟨hother, _⟩ | ⟨_, hturn⟩
      · have hother : i.isComparison = true := hother
        rw [hi] at hother
        cases hother
      · rw [hflag]
        exact ih hturn

/-! ## Jumps -/

variable {condition : Condition} {target : String}

/-- A jump whose condition does not hold goes to the next line, label or not -/
theorem dispatch_jump_of_not_holds (hc : condition.holds s.flag = false) :
    dispatch p s (.jump condition target) =
      .ok { s with ip := s.ip + 1, next := s.ip + 1, steps := s.steps + 1 } :=
  dispatch_eq_ok_iff.2 ⟨_, .pass hc, rfl⟩

/-- A jump whose condition holds goes behind its label -/
theorem dispatch_jump_of_label {index : Nat} (hc : condition.holds s.flag = true)
    (hl : p.label? target = some index) :
    dispatch p s (.jump condition target) =
      .ok { s with ip := index + 1, next := index + 1, steps := s.steps + 1 } :=
  dispatch_eq_ok_iff.2 ⟨_, .jump hc hl, rfl⟩

/-- A jump whose condition holds fails if there is no such label -/
theorem dispatch_jump_of_no_label (hc : condition.holds s.flag = true)
    (hl : p.label? target = none) :
    dispatch p s (.jump condition target) =
      .error ((Cause.unknownLabel target).diagnostic (p.span? s.ip)) :=
  dispatch_eq_error_iff.2 ⟨_, .jump hc hl, rfl⟩

end Machine

open Machine

namespace Program

/-- A jump obeys the most recent comparison of its run.  Before the first comparison only the
unconditional jump is taken; after it, a jump is taken exactly if its condition is true of the two
numbers that the latest comparison has read in its own turn.  A jump that is taken goes behind its
label or fails for want of it, and one that is not goes to the next line in any case -/
theorem jump_exact (p : Program) {s : State Word} {turns : List (Turn Word)}
    (h : Trace p .initial turns s) (condition : Condition) (target : String) :
    ((∀ turn ∈ turns, turn.instruction.isComparison = false) →
      (condition.holds s.flag = true ↔ condition = .always)) ∧
    (∀ turn, Latest (fun turn => turn.instruction.isComparison = true) turns turn →
      ∃ l r : Word, turn.Compares l r ∧
        (condition.holds s.flag = true ↔ condition.Relates l.toInt r.toInt)) ∧
    (condition.holds s.flag = true →
      (∀ index, p.label? target = some index → dispatch p s (.jump condition target) =
        .ok { s with ip := index + 1, next := index + 1, steps := s.steps + 1 }) ∧
      (p.label? target = none → dispatch p s (.jump condition target) =
        .error ((Cause.unknownLabel target).diagnostic (p.span? s.ip)))) ∧
    (condition.holds s.flag = false → dispatch p s (.jump condition target) =
      .ok { s with ip := s.ip + 1, next := s.ip + 1, steps := s.steps + 1 }) := by
  refine ⟨?_, ?_, ?_, dispatch_jump_of_not_holds⟩
  · intro hturns
    rw [h.flag_of_unset hturns]
    exact Condition.holds_none_iff condition
  · intro turn hturn
    obtain ⟨l, r, hcompares, hflag⟩ := h.flag_of_latest hturn
    refine ⟨l, r, hcompares, ?_⟩
    rw [hflag]
    exact Condition.holds_compare_iff condition l.toInt r.toInt
  · intro hc
    exact ⟨fun index hl => dispatch_jump_of_label hc hl, dispatch_jump_of_no_label hc⟩

/-- The register compared is greater by now, but it was less when it was compared: the jump goes
on to the next line, and there is no label for it -/
theorem jump_exact_overwritten :
    ∃ (p : Program) (s : State Word) (turns : List (Turn Word)),
      assemble #[.operate (.binary .mov (.literal 1)) "a", .compare (.register "a") (.literal 2),
        .operate (.binary .mov (.literal 9)) "a", .jump .greater "x"] #[] (.inl rfl) = .ok p ∧
      Trace p .initial turns s ∧ turns.length = 3 ∧ s.registers.get? "a" = some 9 ∧
      p.label? "x" = none ∧
      (Condition.greater.holds s.flag = true ↔ (1 : Int) > 2) ∧
      dispatch p s (.jump .greater "x") = .ok { s with ip := 4, next := 4, steps := 4 } := by
  let p : Program :=
    ⟨#[.operate (.binary .mov (.literal 1)) "a", .compare (.register "a") (.literal 2),
      .operate (.binary .mov (.literal 9)) "a", .jump .greater "x"], #[], [], .inl rfl, rfl,
      by decide⟩
  let s (a : Word) (n : Nat) (flag : Flag) : State Word :=
    { (.initial : State Word) with
      ip := n, next := n, flag, registers := Registers.empty.insert "a" a, steps := n }
  have htrace : Trace p .initial
      [⟨.initial, .operate (.binary .mov (.literal 1)) "a"⟩,
        ⟨s 1 1 none, .compare (.register "a") (.literal 2)⟩,
        ⟨s 1 2 (some .lt), .operate (.binary .mov (.literal 9)) "a"⟩] (s 9 3 (some .lt)) :=
    .turn (.turn (.turn .start rfl (by decide +kernel)) rfl (by decide +kernel)) rfl
      (by decide +kernel)
  obtain ⟨_, hlatest, _, hgoes⟩ := jump_exact p htrace .greater "x"
  -- the comparison is the second turn, and `a` was 1 then
  obtain ⟨l, r, ⟨left, right, hi, hl, hr⟩, hiff⟩ := hlatest _ ⟨[_], [_], rfl, rfl, by decide⟩
  cases hi
  cases hl
  cases hr
  exact ⟨p, _, _, rfl, htrace, rfl, rfl, rfl, hiff, hgoes rfl⟩

end Program

end RegisterMachine
