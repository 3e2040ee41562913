import Mathlib.Data.List.Forall2
import RegisterMachine.Proofs.Machine.Limit
import RegisterMachine.Proofs.Machine.Results
import RegisterMachine.Proofs.Machine.Turn
import RegisterMachine.Proofs.Program.Insertion

/-!
# `RegisterMachine.Proofs.Machine.Insertion` — runs of a program with one line more

The program with a line put in at `k` runs alongside the one without it.  All
that differs is where they are, and how many steps they have counted.  An index
of the shorter program, of the instruction to execute or of one to return to, is
one of these in the longer program (`Moved`):

    index         before k      k                 behind k
    is there      the same      k or k + 1        one more

At `k` the longer program is about to pass the new line; at `k + 1` it has passed
it, or has come there from a line behind.  So a turn of the shorter program is one turn of the
longer, or two if the first of them passes the new line (`Alongside.step`), and
so is the last (`Alongside.stop`).  A run of `n` turns becomes one of `n` to
`2 * n + 1`, and a run without an end becomes another (`Inserted.run_rel`).
-/

namespace RegisterMachine

open Machine

variable {V : Type} [Cell V] {p q : Program} {k : Nat} {line : Instruction}

/-! ## The new line -/

theorem Inert.effect {code : Array Instruction} (h : Inert code line) (q : Program)
    (s : State V) : Effect q s line s := by
  cases h with
  | comment => exact .comment
  | label => exact .label

/-- A turn that passes the new line -/
theorem Inserted.step (h : Inserted k line p q) {t : State V} (ht : t.ip = k) :
    Step q t t.begun.settled := by
  have hline : q.get? t.ip = some line := ht ▸ h.get?_self
  exact .mk (head_eq_pending_iff.2 ⟨hline, h.inert.ne_halt⟩)
    (dispatch_eq_ok_iff.2 ⟨_, h.inert.effect q _, rfl⟩)

namespace Machine

/-! ## Indices -/

/-- An index of the program without the line at `k`, and one where the program with it goes on in
the same way -/
inductive Moved (k : Nat) : Nat → Nat → Prop
  | before {index : Nat} : index ≤ k → Moved k index index
  | behind {index : Nat} : k ≤ index → Moved k index (index + 1)

/-- One behind an instruction is one behind it wherever it has moved -/
theorem moved_succ_shift (k index : Nat) : Moved k (index + 1) (shift k index + 1) := by
  rcases Nat.lt_or_ge index k with hlt | hle
  · rw [shift_of_lt hlt]
    exact .before hlt
  · rw [shift_of_le hle]
    exact .behind (Nat.le_succ_of_le hle)

/-- The index is that of the same instruction, or that of the new line in front of it -/
theorem Moved.eq_shift_or {index index' : Nat} (h : Moved k index index') :
    index' = shift k index ∨ index = k ∧ index' = k := by
  cases h with
  | before hle =>
    rcases Nat.lt_or_eq_of_le hle with hlt | rfl
    · exact .inl (shift_of_lt hlt).symm
    · exact .inr ⟨rfl, rfl⟩
  | behind hle => exact .inl (shift_of_le hle).symm

/-! ## States -/

/-- A state of the program with the line at `k` that differs in indices and in the count alone -/
inductive Alongside (k : Nat) (s : State V) : State V → Prop
  | mk {ip next steps : Nat} {callStack : List Nat} :
      Moved k s.ip ip → List.Forall₂ (Moved k) s.callStack callStack →
      Alongside k s { s with ip, next, callStack, steps }

omit [Cell V] in
theorem alongside_initial (k : Nat) : Alongside k (.initial : State V) .initial :=
  .mk (.before (Nat.zero_le k)) .nil

/-- After one turn at most the two programs are about to execute the same instruction -/
theorem Alongside.align (h : Inserted k line p q) {s t : State V} (hst : Alongside k s t) :
    ∃ m u, m ≤ 1 ∧ Steps q m t u ∧ Alongside k s u ∧ u.ip = shift k s.ip := by
  obtain ⟨hip, hcalls⟩ := hst
  rcases hip.eq_shift_or with rfl | ⟨hk, rfl⟩
  · exact ⟨0, _, Nat.zero_le 1, .refl _, .mk hip hcalls, rfl⟩
  · rw [hk, shift_of_le (Nat.le_refl _)]
    exact ⟨1, _, Nat.le_refl 1, (h.step rfl).steps, .mk (hk ▸ .behind (Nat.le_refl _)) hcalls, rfl⟩

/-! ## One turn of the shorter program -/

theorem Alongside.effect (h : Inserted k line p q) {s t u : State V} {i : Instruction}
    (hst : Alongside k s t) (hip : t.ip = shift k s.ip) (hget : p.get? s.ip = some i)
    (he : Effect p s.begun i u) :
    ∃ v, Effect q t.begun i v ∧ Alongside k u.settled v.settled := by
  obtain ⟨_, hcalls⟩ := hst
  obtain rfl : _ = shift k s.ip := hip
  have hnext := moved_succ_shift k s.ip
  have hlabel : ∀ {name index}, i.target? = some name → p.label? name = some index →
      q.label? name = some (shift k index) := by
    intro name index htarget hl
    rw [h.label?_target hget htarget, hl, Option.map_some]
  cases he with
  | comment => exact ⟨_, .comment, .mk hnext hcalls⟩
  | label => exact ⟨_, .label, .mk hnext hcalls⟩
  | halt => exact ⟨_, .halt, .mk hnext hcalls⟩
  | operate hv => exact ⟨_, .operate hv, .mk hnext hcalls⟩
  | compare hl hr => exact ⟨_, .compare hl hr, .mk hnext hcalls⟩
  | pass hc => exact ⟨_, .pass hc, .mk hnext hcalls⟩
  | jump hc hl => exact ⟨_, .jump hc (hlabel rfl hl), .mk (moved_succ_shift k _) hcalls⟩
  | call hl =>
    exact ⟨_, .call (hlabel rfl hl), .mk (moved_succ_shift k _) (.cons hnext hcalls)⟩
  | ret hs =>
    rw [show s.callStack = _ from hs] at hcalls
    cases hcalls with
    | cons haddress hrest => exact ⟨_, .ret rfl, .mk haddress hrest⟩
  | message ht => exact ⟨_, .message ht, .mk hnext hcalls⟩

theorem Alongside.fault (h : Inserted k line p q) {s t : State V} {i : Instruction} {c : Cause}
    (hst : Alongside k s t) (hget : p.get? s.ip = some i) (hf : Fault p s.begun i c) :
    Fault q t.begun i c := by
  obtain ⟨_, hcalls⟩ := hst
  have hlabel : ∀ {name}, i.target? = some name → p.label? name = none →
      q.label? name = none := by
    intro name htarget hl
    rw [h.label?_target hget htarget, hl, Option.map_none]
  cases hf with
  | operate hv => exact .operate hv
  | compareLeft hl => exact .compareLeft hl
  | compareRight hl hr => exact .compareRight hl hr
  | jump hc hl => exact .jump hc (hlabel rfl hl)
  | call hl => exact .call (hlabel rfl hl)
  | ret hs =>
    rw [show s.callStack = _ from hs] at hcalls
    cases hcalls with
    | nil => exact .ret rfl
  | message ht => exact .message ht

/-- A turn becomes one turn, or two if the first passes the new line -/
theorem Alongside.step (h : Inserted k line p q) {s s' t : State V} (hst : Alongside k s t)
    (hs : Step p s s') :
    ∃ m t', 1 ≤ m ∧ m ≤ 2 ∧ Steps q m t t' ∧ Alongside k s' t' := by
  obtain ⟨m, u, hm, htu, hsu, hip⟩ := hst.align h
  obtain ⟨hi, hd⟩ := hs
  obtain ⟨hget, hne⟩ := head_eq_pending_iff.1 hi
  obtain ⟨_, he, rfl⟩ := dispatch_eq_ok_iff.1 hd
  obtain ⟨v, hv, hmoved⟩ := hsu.effect h hip hget he
  have hturn : Step q u v.settled :=
    .mk (head_eq_pending_iff.2 ⟨hip ▸ (h.get?_shift s.ip).trans hget, hne⟩)
      (dispatch_eq_ok_iff.2 ⟨v, hv, rfl⟩)
  exact ⟨m + 1, _, Nat.le_add_left 1 m, Nat.succ_le_succ hm, htu.trans hturn.steps, hmoved⟩

/-! ## Results -/

/-- The same result, but for the count of steps and the place of a fault -/
inductive Alike : Except Diagnostic (Outcome V) → Except Diagnostic (Outcome V) → Prop
  | ok (o : Outcome V) (steps : Nat) : Alike (.ok o) (.ok { o with steps })
  | error {d d' : Diagnostic} :
      d.kind = d'.kind → d.message = d'.message → Alike (.error d) (.error d')

/-- The last turn becomes the last turn, or the last two if the first passes the new line -/
theorem Alongside.stop (h : Inserted k line p q) {s t : State V}
    {r : Except Diagnostic (Outcome V)} (hst : Alongside k s t) (hs : Stop p s r) :
    ∃ m r', m ≤ 1 ∧ Ends q m t r' ∧ Alike r r' := by
  obtain ⟨m, u, hm, htu, hsu, hip⟩ := hst.align h
  have hget : q.get? u.ip = p.get? s.ip := by rw [hip, h.get?_shift]
  cases hs with
  | finished ho =>
    obtain ⟨_, _⟩ := hsu
    rcases head_eq_finished_iff.1 ho with ⟨hnone, rfl⟩ | ⟨hhalt, rfl⟩
    · have hf := head_eq_finished_iff.2 (.inl ⟨hget.trans hnone, rfl⟩)
      exact ⟨m, _, hm, ⟨_, htu, .finished hf⟩, .ok _ _⟩
    · have hf := head_eq_finished_iff.2 (.inr ⟨hget.trans hhalt, rfl⟩)
      exact ⟨m, _, hm, ⟨_, htu, .finished hf⟩, .ok _ _⟩
  | failed hi hd =>
    obtain ⟨hpending, hne⟩ := head_eq_pending_iff.1 hi
    obtain ⟨c, hc, rfl⟩ := dispatch_eq_error_iff.1 hd
    have hfault := dispatch_eq_error_iff.2 ⟨c, hsu.fault h hpending hc, rfl⟩
    have hi := head_eq_pending_iff.2 ⟨hget.trans hpending, hne⟩
    exact ⟨m, _, hm, ⟨u, htu, .failed hi hfault⟩, .error rfl rfl⟩

/-! ## Runs -/

theorem Alongside.steps (h : Inserted k line p q) {n : Nat} {s s' t : State V}
    (hst : Alongside k s t) (hs : Steps p n s s') :
    ∃ m t', n ≤ m ∧ m ≤ 2 * n ∧ Steps q m t t' ∧ Alongside k s' t' := by
  induction hs generalizing t with
  | refl s => exact ⟨0, t, Nat.le_refl 0, Nat.le_refl 0, .refl t, hst⟩
  | step hturn _ ih =>
    obtain ⟨m, u, hm, hm', htu, hsu⟩ := hst.step h hturn
    obtain ⟨m', t', hle, hle', hut, hst⟩ := ih hsu
    exact ⟨m + m', t', by omega, by omega, htu.trans hut, hst⟩

/-- A run that ends ends alike with the new line -/
theorem Alongside.ends (h : Inserted k line p q) {n : Nat} {s t : State V}
    {r : Except Diagnostic (Outcome V)} (hst : Alongside k s t) (hr : Ends p n s r) :
    ∃ m r', n ≤ m ∧ m ≤ 2 * n + 1 ∧ Ends q m t r' ∧ Alike r r' := by
  obtain ⟨s', hs, hstop⟩ := hr
  obtain ⟨m, t', hle, hle', ht, hst⟩ := hst.steps h hs
  obtain ⟨m', r', hm', ⟨u, hu, hstop⟩, halike⟩ := hst.stop h hstop
  exact ⟨m + m', r', by omega, by omega, ⟨u, ht.trans hu, hstop⟩, halike⟩

section

omit [Cell V]

variable {x y : Option (Except Diagnostic (Outcome V))}

theorem finishes_iff (h : Option.Rel Alike x y) (value : Value) (registers : Registers V)
    (output : Array String) :
    (∃ n, x = some (.ok ⟨value, registers, output, n⟩)) ↔
      ∃ n, y = some (.ok ⟨value, registers, output, n⟩) := by
  cases h with
  | none => rfl
  | some halike =>
    cases halike with
    | error => simp
    | ok o steps =>
      constructor
      · intro h
        obtain ⟨_, h⟩ := h
        cases h
        exact ⟨steps, rfl⟩
      · intro h
        obtain ⟨_, h⟩ := h
        cases h
        exact ⟨o.steps, rfl⟩

theorem fails_iff (h : Option.Rel Alike x y) (kind : Diagnostic.Kind) (message : String) :
    (∃ d, x = some (.error d) ∧ d.kind = kind ∧ d.message = message) ↔
      ∃ d, y = some (.error d) ∧ d.kind = kind ∧ d.message = message := by
  cases h with
  | none => rfl
  | some halike =>
    cases halike with
    | ok => simp
    | error hkind hmessage => simp [hkind, hmessage]

theorem eq_none_iff_of_rel (h : Option.Rel Alike x y) : x = none ↔ y = none := by
  cases h with
  | none => rfl
  | some => exact iff_of_false nofun nofun

end

end Machine

namespace Inserted

/-- With the new line a run ends alike, or it has no end either -/
theorem run_rel (h : Inserted k line p q) : Option.Rel Alike (p.run none) (q.run none) := by
  cases hrun : p.run none with
  | none =>
    cases hrun' : q.run none with
    | none => exact .none
    | some r' =>
      obtain ⟨m, hr'⟩ := runUnlimited_eq_some_iff.1 hrun'
      obtain ⟨_, hs⟩ := runUnlimited_eq_none_iff.1 hrun (m + 1)
      obtain ⟨_, _, hle, _, ht, _⟩ := (alongside_initial k).steps h hs
      exact absurd (Nat.le_trans hle (hr'.le ht)) (Nat.not_succ_le_self m)
  | some r =>
    obtain ⟨n, hr⟩ := runUnlimited_eq_some_iff.1 hrun
    obtain ⟨m, r', _, _, hr', halike⟩ := (alongside_initial k).ends h hr
    rw [Program.run_none_of_ends hr']
    exact .some halike

/-- The new line adds a turn for each that there was, and one for the last, at most -/
theorem steps_le (h : Inserted k line p q) {o o' : Outcome Word} (ho : p.run none = some (.ok o))
    (ho' : q.run none = some (.ok o')) : o.steps ≤ o'.steps ∧ o'.steps ≤ 2 * o.steps + 1 := by
  obtain ⟨n, hn⟩ := runUnlimited_eq_some_iff.1 ho
  obtain ⟨m, r', hle, hle', hr', _⟩ := (alongside_initial k).ends h hn
  rw [Program.run_none_of_ends hr'] at ho'
  cases ho'
  rw [hn.steps_eq, hr'.steps_eq]
  simp only [State.initial, Nat.zero_add]
  exact ⟨hle, hle'⟩

end Inserted

namespace Program

/-- A comment never changes what a program does, and neither does a label that nothing goes to.
Wherever such a line is put into an accepted program, the longer program is accepted; it ends with
the same value, registers and output, after at least as many steps and at most one more than twice
as many; it fails with the same kind and message; and it is cut off under every limit if and only
if the other is -/
theorem run_insert {code : Array Instruction} {p : Program} {k : Nat} {line : Instruction}
    (hp : assemble code #[] (.inl rfl) = .ok p) (hk : k ≤ code.size) (hline : Inert code line) :
    ∃ q, assemble (code.insertIdx k line hk) #[] (.inl rfl) = .ok q ∧
      (∀ value registers output,
        (∃ n, p.run none = some (.ok ⟨value, registers, output, n⟩)) ↔
          ∃ n, q.run none = some (.ok ⟨value, registers, output, n⟩)) ∧
      (∀ o o', p.run none = some (.ok o) → q.run none = some (.ok o') →
        o.steps ≤ o'.steps ∧ o'.steps ≤ 2 * o.steps + 1) ∧
      (∀ kind message,
        (∃ d, p.run none = some (.error d) ∧ d.kind = kind ∧ d.message = message) ↔
          ∃ d, q.run none = some (.error d) ∧ d.kind = kind ∧ d.message = message) ∧
      ((∀ n, CutOff (p.run (some n))) ↔ ∀ n, CutOff (q.run (some n))) := by
  obtain ⟨q, hq, h⟩ := assemble_insert hp hk hline
  have hrel := h.run_rel
  refine ⟨q, hq, finishes_iff hrel, fun o o' => h.steps_le, fails_iff hrel, ?_⟩
  rw [forall_cutOff_iff, forall_cutOff_iff]
  exact eq_none_iff_of_rel hrel

/-- A label between a call and the end that the call returns to -/
theorem run_insert_at_return :
    ∃ p q : Program,
      assemble #[.call "f", .halt, .label "f", .message "'done'", .ret] #[] (.inl rfl) = .ok p ∧
      assemble #[.call "f", .label "g", .halt, .label "f", .message "'done'", .ret] #[]
        (.inl rfl) = .ok q ∧
      p.run none = some (.ok ⟨.text "done", .empty, #["done"], 3⟩) ∧
      ∃ n, 3 ≤ n ∧ n ≤ 7 ∧ q.run none = some (.ok ⟨.text "done", .empty, #["done"], n⟩) := by
  let p : Program :=
    ⟨#[.call "f", .halt, .label "f", .message "'done'", .ret], #[], [("f", 2)], .inl rfl, rfl,
      by decide⟩
  have hp : assemble p.code #[] (.inl rfl) = .ok p := rfl
  have hk : 1 ≤ p.code.size := by decide
  have hline : Inert p.code (.label "g") := .label (by decide +kernel) (by decide)
  have hcode : p.code.insertIdx 1 (.label "g") hk =
      #[.call "f", .label "g", .halt, .label "f", .message "'done'", .ret] := by simp [p]
  have hrun : p.run (some 3) = some (.ok ⟨.text "done", .empty, #["done"], 3⟩) := by
    decide +kernel
  have hend : p.run none = some (.ok ⟨.text "done", .empty, #["done"], 3⟩) := by
    cases run_eq_some_iff.1 hrun with
    | ended he _ => exact run_eq_some_iff.2 (.ended he nofun)
  obtain ⟨q, hq, hok, hsteps, _⟩ := run_insert hp hk hline
  simp only [hcode] at hq
  obtain ⟨n, hn⟩ := (hok _ _ _).1 ⟨3, hend⟩
  obtain ⟨hle, hle'⟩ := hsteps _ _ hend hn
  exact ⟨p, q, hp, hq, hend, n, hle, hle', hn⟩

end Program

end RegisterMachine
