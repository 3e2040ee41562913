import RegisterMachine.Proofs.Machine.Faults
import RegisterMachine.Proofs.Machine.Results
import RegisterMachine.Proofs.Transcript.Entries

/-!
# `RegisterMachine.Proofs.Transcript.Records` — a transcript tells what has happened

A run with a transcript is a function of its own, which takes its turns as the run without one
does.  Here what its records tell is read off the trace of that run:

    the source    an entry for each line up to the first that says nothing, and one for the program
    each turn     the instruction in its state, and its deed if it has one         (`ofTurn`)
    the end       the instruction that fails, or what the run has come to          (`Closing`)

So the transcript changes nothing about the run (`snd_runUnder`), and it has an entry for every
instruction of the run that is executed, the one that fails included (`Closing.countP_isStep`).
-/

namespace RegisterMachine

open Machine

namespace Transcript

/-! ## Lines -/

/-- The records are of the lines up to the first that says nothing, each with what it says -/
theorem ofLines_split (ls : List Line) :
    ∃ (read : List (Line × Instruction)) (rest : List Line),
      ls = read.map Prod.fst ++ rest ∧ (∀ e ∈ read, e.1.parse = .ok e.2) ∧
      (∀ l ∈ rest.head?, ∃ d, l.parse = .error d) ∧
      (ofLines ls).map Record.told = read.map fun e => .ofLine e.1 e.2 := by
  induction ls with
  | nil => exact ⟨[], [], rfl, nofun, nofun, rfl⟩
  | cons l ls ih =>
    cases hl : l.parse with
    | ok i =>
      obtain ⟨read, rest, hsplit, hread, hrest, hlines⟩ := ih
      refine ⟨(l, i) :: read, rest, ?_, ?_, hrest, ?_⟩
      · rw [hsplit, List.map_cons, List.cons_append]
      · exact List.forall_mem_cons.2 ⟨hl, hread⟩
      · rw [ofLines, hl, List.map_cons, List.map_cons, ← hlines, told_lineRead]
    | error d =>
      refine ⟨[], l :: ls, rfl, nofun, ?_, ?_⟩
      · intro m hm
        cases hm
        exact ⟨d, hl⟩
      · rw [ofLines, hl]
        rfl

/-! ## Turns -/

variable {V : Type} [Cell V] {p : Program} {s t : State V} {i : Instruction}

/-- The entries of a turn that succeeds -/
def ofTurn (turn : Turn V) : List Entry :=
  .ofStep turn.state turn.instruction :: (Entry.ofDeed? turn.state turn.instruction).toList

theorem countP_isStep_ofTurn (turn : Turn V) : (ofTurn turn).countP Entry.isStep = 1 := by
  rw [ofTurn]
  cases hdeed : Entry.ofDeed? turn.state turn.instruction with
  | none => rfl
  | some e =>
    rw [Option.toList_some, List.countP_cons_of_pos rfl, List.countP_singleton,
      isStep_of_deed? hdeed]
    rfl

theorem countP_isStep_flatMap (turns : List (Turn V)) :
    (turns.flatMap ofTurn).countP Entry.isStep = turns.length := by
  induction turns with
  | nil => rfl
  | cons turn turns ih =>
    rw [List.flatMap_cons, List.countP_append, countP_isStep_ofTurn, ih, List.length_cons,
      Nat.add_comm]

/-- The records of a turn, and what they tell -/
theorem told_turn (h : dispatch p s i = .ok t) :
    (Record.dispatched s.ip i s.flag :: (effect? s.flag t i).toList).map Record.told =
      ofTurn ⟨s, i⟩ := by
  rw [List.map_cons, ← Option.toList_map, told_effect? h, told_dispatched]
  rfl

/-! ## Runs -/

variable {limit : Option Nat} {turns : List (Turn V)} {r : Except Diagnostic (Outcome V)}

/-- The last entries of a run, and what the run comes to in its last state -/
inductive Closing (p : Program) (limit : Option Nat) (turns : List (Turn V)) (s : State V) :
    List Entry → Except Diagnostic (Outcome V) → Prop
  | halted {o : Outcome V} : head p s = .finished o → o.value ≠ .outOfBounds →
      Closing p limit turns s [.ofOutcome o] (.ok o)
  | left {o : Outcome V} : head p s = .finished o → o.value = .outOfBounds →
      Closing p limit turns s [.ofExit s, .ofOutcome o] (.ok o)
  | failed {i : Instruction} {d : Diagnostic} :
      head p s = .pending i → dispatch p s i = .error d →
      Closing p limit turns s [.ofStep s i] (.error d)
  | cutOff {i : Instruction} : head p s = .pending i → limit = some turns.length →
      Closing p limit turns s [] (.error (cutOff p turns.length s))

/-- A run under a limit or under none, its records put behind the given ones -/
def runUnder (p : Program) : Option Nat → State V → Array Record →
    Option (Array Record × Except Diagnostic (Outcome V))
  | some limit, s, records => some (runFrom p limit limit s records)
  | none, s, records => runUnlimited p s records

theorem append_append (records : Array Record) (rs rs' : List Record) :
    records ++ rs ++ rs' = records ++ (rs ++ rs') := by
  apply Array.toList_inj.1
  rw [Array.toList_appendList, Array.toList_appendList, Array.toList_appendList, List.append_assoc]

theorem runFrom_turn (hi : head p s = .pending i) (hd : dispatch p s i = .ok t) (n k : Nat)
    (records : Array Record) :
    runFrom p n (k + 1) s records = runFrom p n k t
      (records ++ (Record.dispatched s.ip i s.flag :: (effect? s.flag t i).toList)) := by
  rw [runFrom]
  simp only [hi, hd]
  rw [← Array.appendList_cons]

theorem runUnlimited_turn (hi : head p s = .pending i) (hd : dispatch p s i = .ok t)
    (records : Array Record) :
    runUnlimited p s records = runUnlimited p t
      (records ++ (Record.dispatched s.ip i s.flag :: (effect? s.flag t i).toList)) := by
  rw [runUnlimited]
  simp only [hi, hd]
  rw [← Array.appendList_cons]

/-- The turns of a run put their records down one after the other, whatever is there already -/
theorem run_turns (h : Trace p s turns t) :
    ∃ rs : List Record, rs.map Record.told = turns.flatMap ofTurn ∧
      ∀ records : Array Record,
        (∀ n k, runFrom p n (k + turns.length) s records = runFrom p n k t (records ++ rs)) ∧
        runUnlimited p s records = runUnlimited p t (records ++ rs) := by
  induction h with
  | start =>
    refine ⟨[], rfl, fun records => ?_⟩
    rw [Array.appendList_nil]
    exact ⟨fun n k => rfl, rfl⟩
  | @turn turns t u i _ hi hd ih =>
    obtain ⟨rs, htold, hrun⟩ := ih
    let last := Record.dispatched t.ip i t.flag :: (effect? t.flag u i).toList
    refine ⟨rs ++ last, ?_, fun records => ⟨fun n k => ?_, ?_⟩⟩
    · rw [List.map_append, htold, told_turn hd, List.flatMap_append, List.flatMap_singleton]
    · rw [List.length_append, List.length_singleton, Nat.add_comm _ 1, ← Nat.add_assoc,
        (hrun records).1, runFrom_turn hi hd, append_append]
    · rw [(hrun records).2, runUnlimited_turn hi hd, append_append]

/-- The last turn puts down the records that the run closes with -/
theorem closing_of_stop (limit : Option Nat) (turns : List (Turn V)) (h : Stop p s r) :
    ∃ closing : List Record, Closing p limit turns s (closing.map Record.told) r ∧
      ∀ records : Array Record,
        (∀ n k, dispatches 0 r ≤ k → runFrom p n k s records = (records ++ closing, r)) ∧
        runUnlimited p s records = some (records ++ closing, r) := by
  cases h with
  | @finished o ho =>
    refine ⟨ofEnd s o, ?_, fun records => ⟨fun n k _ => ?_, ?_⟩⟩
    · rw [ofEnd]
      split
      · rename_i hvalue
        exact .left ho hvalue
      · rename_i hvalue
        exact .halted ho hvalue
    · rw [runFrom]
      simp only [ho]
    · rw [runUnlimited]
      simp only [ho]
  | @failed i d hi hd =>
    refine ⟨[.dispatched s.ip i s.flag], ?_, fun records => ⟨fun n k hk => ?_, ?_⟩⟩
    · rw [List.map_singleton, told_dispatched]
      exact .failed hi hd
    · obtain ⟨k, rfl⟩ := Nat.exists_eq_add_of_le' (show 1 ≤ k from hk)
      rw [runFrom]
      simp only [hi, hd, Array.appendList_cons, Array.appendList_nil]
    · rw [runUnlimited]
      simp only [hi, hd, Array.appendList_cons, Array.appendList_nil]

theorem runFrom_of_pending (hi : head p s = .pending i) (n : Nat) (records : Array Record) :
    runFrom p n 0 s records = (records, .error (cutOff p n s)) := by
  rw [runFrom]
  simp only [hi]

/-- A run with a transcript comes to what the run without one does, and its records tell of its
turns and of its end -/
theorem runUnder_of_comesTo (h : ComesTo p limit s r) :
    ∃ (turns : List (Turn V)) (t : State V) (closing : List Entry) (rs : List Record),
      Trace p s turns t ∧ Closing p limit turns t closing r ∧
      rs.map Record.told = turns.flatMap ofTurn ++ closing ∧
      ∀ records, runUnder p limit s records = some (records ++ rs, r) := by
  cases h with
  | @ended n r he hm =>
    obtain ⟨t, hs, hstop⟩ := he
    obtain ⟨turns, rfl, htrace⟩ := steps_iff_trace.1 hs
    obtain ⟨rs, htold, hturns⟩ := run_turns htrace
    obtain ⟨closing, hclosing, hend⟩ := closing_of_stop limit turns hstop
    refine ⟨turns, t, _, rs ++ closing, htrace, hclosing, ?_, fun records => ?_⟩
    · rw [List.map_append, htold]
    rw [← append_append]
    cases limit with
    | none => rw [runUnder, (hturns records).2, (hend _).2]
    | some m =>
      have hle : dispatches turns.length r ≤ m := hm m rfl
      rw [dispatches_eq_add] at hle
      -- of the limit, the turns leave enough for the last one, which may fail
      obtain ⟨k, hk⟩ := Nat.exists_eq_add_of_le' hle
      have hfrom := (hturns records).1 m (k + dispatches 0 r)
      rw [Nat.add_assoc, ← hk] at hfrom
      rw [runUnder, hfrom, (hend _).1 m _ (Nat.le_add_left _ k)]
  | @cutOff m t i hm hs hi =>
    obtain ⟨turns, rfl, htrace⟩ := steps_iff_trace.1 hs
    cases hm
    obtain ⟨rs, htold, hturns⟩ := run_turns htrace
    refine ⟨turns, t, [], rs, htrace, .cutOff hi rfl, ?_, fun records => ?_⟩
    · rw [htold, List.append_nil]
    · have hfrom := (hturns records).1 turns.length 0
      rw [Nat.zero_add] at hfrom
      rw [runUnder, hfrom, runFrom_of_pending hi]

/-- Without a limit, a run with a transcript comes to something only if the run has an end -/
theorem ends_of_runUnlimited {records : Array Record}
    {x : Array Record × Except Diagnostic (Outcome V)}
    (h : runUnlimited p s records = some x) : ∃ n, Ends p n s x.2 := by
  refine runUnlimited.partial_correctness p (fun s _ x => ∃ n, Ends p n s x.2) ?_ s records x h
  -- as for the run without a transcript, whose records are not looked at here
  intro run ih s records x h
  cases hh : head p s with
  | finished o =>
    simp only [hh, Option.some.injEq] at h
    exact h ▸ ⟨0, s, .refl s, .finished hh⟩
  | pending i =>
    cases hd : dispatch p s i with
    | ok t =>
      simp only [hh, hd] at h
      obtain ⟨n, u, hu, hstop⟩ := ih t _ x h
      exact ⟨n + 1, u, .step (.mk hh hd) hu, hstop⟩
    | error d =>
      simp only [hh, hd, Option.some.injEq] at h
      exact h ▸ ⟨0, s, .refl s, .failed hh hd⟩

/-- The transcript changes nothing about what a run comes to, or that it comes to nothing -/
theorem snd_runUnder (records : Array Record) :
    (runUnder p limit s records).map Prod.snd = Machine.runUnder p limit s := by
  cases hr : Machine.runUnder p limit s with
  | some r =>
    obtain ⟨_, _, _, _, _, _, _, hrun⟩ := runUnder_of_comesTo (runUnder_eq_some_iff.1 hr)
    rw [hrun]
    rfl
  | none =>
    obtain ⟨rfl, _⟩ := runUnder_eq_none_iff.1 hr
    rw [Option.map_eq_none_iff, Option.eq_none_iff_forall_not_mem]
    intro x hx
    rw [Machine.runUnder, runUnlimited_eq_some_iff.2 (ends_of_runUnlimited hx)] at hr
    cases hr

/-! ## Counting -/

/-- A run that finishes tells the count of its last state -/
theorem Closing.steps_eq {o : Outcome V} {closing : List Entry}
    (h : Closing p limit turns s closing (.ok o)) : o.steps = s.steps := by
  cases h with
  | halted ho _ => exact steps_of_finished ho
  | left ho _ => exact steps_of_finished ho

/-- There is an entry for every instruction that a run has dispatched: one that has succeeded, or
the one that has failed -/
theorem Closing.countP_isStep {closing : List Entry} (h : Closing p limit turns s closing r) :
    (∀ o, r = .ok o → (turns.flatMap ofTurn ++ closing).countP Entry.isStep = turns.length) ∧
    (∀ d, r = .error d → d.kind ≠ .stepLimitExceeded →
      (turns.flatMap ofTurn ++ closing).countP Entry.isStep = turns.length + 1) ∧
    (∀ d, r = .error d → d.kind = .stepLimitExceeded →
      (turns.flatMap ofTurn ++ closing).countP Entry.isStep = turns.length ∧
        limit = some turns.length) := by
  rw [List.countP_append, countP_isStep_flatMap]
  cases h with
  | halted _ _ => exact ⟨fun _ _ => rfl, nofun, nofun⟩
  | left _ _ => exact ⟨fun _ _ => rfl, nofun, nofun⟩
  | @failed i d _ hd =>
    have hk := kind_of_dispatch hd
    refine ⟨nofun, fun _ _ _ => rfl, ?_⟩
    intro d' hd' hlimit
    cases hd'
    rw [hlimit] at hk
    cases hk
  | cutOff _ hlimit =>
    refine ⟨nofun, ?_, fun _ _ _ => ⟨rfl, hlimit⟩⟩
    intro d hd hkind
    cases hd
    exact absurd rfl hkind

/-! ## From a source on -/

theorem ofSource_of_error {source : String} {d : Diagnostic} (limit : Option Nat)
    (h : Program.parse source = .error d) :
    ofSource source limit = some ((ofLines (Source.lines source)).toArray, .error d) := by
  unfold ofSource
  rw [h]

theorem ofSource_of_ok {source : String} (limit : Option Nat) (h : Program.parse source = .ok p) :
    ofSource source limit =
      runUnder p limit .initial ((ofLines (Source.lines source)).toArray.push (ofProgram p)) := by
  unfold ofSource
  rw [h]
  cases limit <;> rfl

/-- What is told of reading a source and running it, and the result, if the run ends -/
def log (source : String) (limit : Option Nat) :
    Option (List Entry × Except Diagnostic (Outcome Word)) :=
  (ofSource source limit).map fun x => (x.1.toList.map Record.told, x.2)

theorem log_of_error {source : String} {d : Diagnostic} (limit : Option Nat)
    (h : Program.parse source = .error d) :
    log source limit = some ((ofLines (Source.lines source)).map Record.told, .error d) := by
  simp only [log, ofSource_of_error limit h, Option.map_some]

theorem log_of_ok {source : String} {p : Program} {r : Except Diagnostic (Outcome Word)}
    (h : Program.parse source = .ok p) (hr : ComesTo p limit .initial r) :
    ∃ turns s closing, Trace p .initial turns s ∧ Closing p limit turns s closing r ∧
      log source limit = some ((ofLines (Source.lines source)).map Record.told ++
        .ofProgram p :: (turns.flatMap ofTurn ++ closing), r) := by
  obtain ⟨turns, s, closing, rs, htrace, hclosing, htold, hrun⟩ := runUnder_of_comesTo hr
  refine ⟨turns, s, closing, htrace, hclosing, ?_⟩
  rw [log, ofSource_of_ok limit h, hrun, ← htold]
  simp only [Option.map_some, Array.toList_appendList, Array.toList_push, List.map_append,
    List.map_cons, List.append_assoc, List.singleton_append, told_ofProgram]

/-- No line and no program is an instruction that is about to be executed -/
theorem countP_isStep_source (read : List (Line × Instruction)) (p : Program) (es : List Entry) :
    ((read.map fun e => Entry.ofLine e.1 e.2) ++ .ofProgram p :: es).countP Entry.isStep =
      es.countP Entry.isStep := by
  have hread : (read.map fun e => Entry.ofLine e.1 e.2).countP Entry.isStep = 0 := by
    rw [List.countP_map]
    exact List.countP_eq_zero.2 fun e _ => Bool.false_ne_true
  have hprogram : ¬ (Entry.ofProgram p).isStep = true := Bool.false_ne_true
  rw [List.countP_append, hread, Nat.zero_add, List.countP_cons_of_neg hprogram]

/-- The log is faithful, and does not influence the result.  It begins with an entry for each line
up to the first that says nothing.  For a source that is no program there are no other entries; for
one that is there is an entry with the number of its instructions and of its labels.  Then, turn by
turn, comes the instruction that is dispatched, with the pointer and the flag of the state before
it, and its deed if it has something to tell and succeeds; and at the end what the run has come to,
unless an instruction has failed or would have been one too many.  So the instructions that are
told are counted by the steps of the run, and one more has been told if it has failed -/
theorem ofSource_exact (source : String) (limit : Option Nat) :
    ∃ (read : List (Line × Instruction)) (rest : List Line),
      Source.lines source = read.map Prod.fst ++ rest ∧
      (∀ e ∈ read, e.1.parse = .ok e.2) ∧ (∀ l ∈ rest.head?, ∃ d, l.parse = .error d) ∧
      (∀ d, Program.parse source = .error d →
        log source limit = some (read.map fun e => .ofLine e.1 e.2, .error d)) ∧
      ∀ p, Program.parse source = .ok p →
        (ofSource source limit).map Prod.snd = p.run limit ∧
        ∀ r, p.run limit = some r →
          ∃ (turns : List (Turn Word)) (s : State Word) (closing entries : List Entry),
          Trace p .initial turns s ∧ Closing p limit turns s closing r ∧
          log source limit = some (entries, r) ∧
          entries = (read.map fun e => .ofLine e.1 e.2) ++
            .ofProgram p :: (turns.flatMap ofTurn ++ closing) ∧
          (∀ turn ∈ turns, (Entry.ofDeed? turn.state turn.instruction).isSome =
            turn.instruction.tells turn.state.flag) ∧
          (∀ o, r = .ok o → entries.countP Entry.isStep = o.steps) ∧
          (∀ d, r = .error d → d.kind ≠ .stepLimitExceeded →
            entries.countP Entry.isStep = turns.length + 1) ∧
          (∀ d, r = .error d → d.kind = .stepLimitExceeded →
            entries.countP Entry.isStep = turns.length ∧ limit = some turns.length) := by
  obtain ⟨read, rest, hsplit, hread, hrest, hlines⟩ := ofLines_split (Source.lines source)
  refine ⟨read, rest, hsplit, hread, hrest, ?_, ?_⟩
  · intro d hd
    rw [log_of_error limit hd, hlines]
  · intro p hp
    constructor
    · rw [ofSource_of_ok limit hp, snd_runUnder, Program.run_eq]
    · intro r hr
      obtain ⟨turns, s, closing, htrace, hclosing, hlog⟩ :=
        log_of_ok hp (Program.run_eq_some_iff.1 hr)
      obtain ⟨hok, hfailed, hcut⟩ := hclosing.countP_isStep
      rw [hlines] at hlog
      refine ⟨turns, s, closing, _, htrace, hclosing, hlog, rfl, ?_, ?_, ?_, ?_⟩
      · intro turn hturn
        obtain ⟨t, ht⟩ := htrace.dispatch_of_mem hturn
        exact isSome_ofDeed? ht
      · rintro o rfl
        rw [countP_isStep_source, hok o rfl, hclosing.steps_eq, htrace.steps.steps_eq]
        exact (Nat.zero_add turns.length).symm
      · rw [countP_isStep_source]
        exact hfailed
      · rw [countP_isStep_source]
        exact hcut

/-- Behind its lines, the log of a run that calls, jumps and sends a message, and then leaves the
program -/
theorem ofSource_exact_called :
    let source :=
      "mov a, -5\ncmp a, 2\njge g\ncall f\ncmp 2, a\njg g\nf:\ncmp a, a\nmsg 'a=', a\nret\ng:"
    let behind : List Entry :=
      [⟨.debug, .parser, "Parsed 11 instructions with 2 labels"⟩,
        ⟨.trace, .machine, "   0: mov a, -5                flag=Unset"⟩,
        ⟨.trace, .machine, "   1: cmp a, 2                 flag=Unset"⟩,
        ⟨.trace, .machine, "   2: jge g                    flag=Less"⟩,
        ⟨.trace, .machine, "   3: call f                   flag=Less"⟩,
        ⟨.debug, .machine, "call 'f', depth 1"⟩,
        ⟨.trace, .machine, "   7: cmp a, a                 flag=Less"⟩,
        ⟨.trace, .machine, "   8: msg 'a=', a              flag=Equal"⟩,
        ⟨.debug, .machine, "msg \"a=-5\""⟩,
        ⟨.trace, .machine, "   9: ret                      flag=Equal"⟩,
        ⟨.debug, .machine, "ret to 4"⟩,
        ⟨.trace, .machine, "   4: cmp 2, a                 flag=Equal"⟩,
        ⟨.trace, .machine, "   5: jg g                     flag=Greater"⟩,
        ⟨.debug, .machine, "jg taken to 'g'"⟩,
        ⟨.debug, .machine, "Instruction pointer 11 is out of bounds"⟩,
        ⟨.debug, .machine, "Finished after 9 steps with OutOfBounds"⟩]
    ∃ p o entries, Program.parse source = .ok p ∧ p.run (some 20) = some (.ok o) ∧
      log source (some 20) = some (entries, .ok o) ∧ entries.drop 11 = behind ∧
      entries.countP Entry.isStep = o.steps ∧ o.steps = 9 := by
  intro source behind
  have htold : (log source (some 20)).map
      (fun x => (x.1.drop 11, x.2.toOption.map Outcome.steps)) = some (behind, some 9) := by
    decide +kernel
  obtain ⟨_, _, _, _, _, hrefused, hrun⟩ := ofSource_exact source (some 20)
  cases hp : Program.parse source with
  | error d =>
    rw [hrefused d hp] at htold
    cases (Prod.mk.inj (Option.some.inj htold)).2
  | ok p =>
    obtain ⟨_, _, _, entries, _, _, hlog, _, _, hsteps, _⟩ := (hrun p hp).2 _ rfl
    rw [hlog] at htold
    obtain ⟨hbehind, hcount⟩ := Prod.mk.inj (Option.some.inj htold)
    cases hr : p.runWithin 20 with
    | error d =>
      rw [hr] at hcount
      cases hcount
    | ok o =>
      rw [hr] at hlog hcount
      have hrun : p.run (some 20) = some (.ok o) := congrArg some hr
      exact ⟨p, o, entries, rfl, hrun, hlog, hbehind, hsteps o hr, Option.some.inj hcount⟩

/-- A log from its first line on -/
example : (log "f:\nend" (some 1)).map Prod.fst =
    some [⟨.trace, .parser, "\"f:\" -> Label \x7b name: \"f\" \x7d"⟩,
      ⟨.trace, .parser, "\"end\" -> End"⟩,
      ⟨.debug, .parser, "Parsed 2 instructions with 1 labels"⟩,
      ⟨.trace, .machine, "   0: f:                       flag=Unset"⟩,
      ⟨.debug, .machine, "Finished after 1 steps with Integer(-1)"⟩] := by
  decide +kernel

end Transcript

end RegisterMachine
