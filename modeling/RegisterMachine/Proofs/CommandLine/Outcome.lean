import RegisterMachine.Proofs.CommandLine.Place
import RegisterMachine.Proofs.Machine.Limit
import RegisterMachine.Proofs.Machine.Messages
import RegisterMachine.Proofs.Registers.Entries

/-!
# `RegisterMachine.Proofs.CommandLine.Outcome` — what is printed, and the exit status

A request to run a file comes to one of three things: it fails (`Fails`), it finishes
(`Finishes`), or it has no end (`Endless`).

                exit status                         output                   report
    fails       1, and 101 if the file is empty     nothing                  the fault
    finishes    2 if out of bounds, 0 if not        messages, registers      none

What it comes to depends on the text and the step limit only, and on the limit only by
whether the run is cut off (`Answer.ofText_eq_of_not_cutOff`).  Of the other options, one
chooses which messages are printed, one whether the registers are, and the third has to
do with the transcript only.
-/

namespace RegisterMachine

open Machine

namespace CommandLine

/-- A file with this text is run to an end -/
def Finishes (options : Options) (text : String) (o : Outcome Word) : Prop :=
  ∃ p, Program.parse text = .ok p ∧ p.run options.limit = some (.ok o)

/-- A file with this text is run and has no end -/
def Endless (options : Options) (text : String) : Prop :=
  ∃ p, Program.parse text = .ok p ∧ p.run options.limit = none

variable {options : Options} {text : String} {d : Diagnostic} {o : Outcome Word}

theorem fails_or_finishes (options : Options) (text : String) :
    (∃ d, Fails options text d) ∨ (∃ o, Finishes options text o) ∨ Endless options text := by
  cases hp : Program.parse text with
  | error d => exact .inl ⟨d, .parse hp⟩
  | ok p =>
    cases hrun : p.run options.limit with
    | none => exact .inr (.inr ⟨p, hp, hrun⟩)
    | some result =>
      cases result with
      | error d => exact .inl ⟨d, .run hp hrun⟩
      | ok o => exact .inr (.inl ⟨o, p, hp, hrun⟩)

/-- Under a limit every run has an end -/
theorem Endless.limit_eq_none (h : Endless options text) : options.limit = none := by
  obtain ⟨p, _, hrun⟩ := h
  exact (Program.run_eq_none_iff.1 hrun).1

theorem Endless.answer (h : Endless options text) : Answer.ofText options text = none := by
  obtain ⟨p, hp, hrun⟩ := h
  rw [ofText_of_ok options hp, hrun, Option.map_none]

/-! ## What is printed -/

/-- The lines about the messages as they are printed: all of them, or the answer of the run -/
def messageText (all : Bool) (o : Outcome Word) : String :=
  if all then unlines o.output.toList else unlines [o.value.display]

/-- A line for each register -/
def registerText (registers : List (String × Word)) : String :=
  unlines (registers.map fun (name, v) => name ++ " = " ++ v.text)

theorem unlines_append (ls ms : List String) : unlines (ls ++ ms) = unlines ls ++ unlines ms := by
  rw [unlines, List.map_append, String.join_append]
  rfl

theorem unlines_messageLines (options : Options) (o : Outcome Word) :
    unlines (messageLines options o) = messageText options.allMessages o := by
  unfold messageLines messageText
  split <;> rfl

theorem unlines_registerLines (options : Options) (o : Outcome Word) :
    unlines (registerLines options o) =
      if options.registers then registerText o.registers.entries else "" := by
  unfold registerLines registerText
  split
  · rw [Registers.contents, List.map_map]
    rfl
  · rfl

theorem Finishes.answer (h : Finishes options text o) :
    Answer.ofText options text = some
      { status := if o.value = .outOfBounds then 2 else 0
        output := messageText options.allMessages o ++
          if options.registers then registerText o.registers.entries else ""
        report := none } := by
  obtain ⟨p, hp, ho⟩ := h
  rw [ofText_of_ok options hp, ho, Option.map_some, Answer.ofResult, Answer.success,
    unlines_append, unlines_messageLines, unlines_registerLines]

/-- Where a run answers with its last message, that is the end of all messages -/
theorem messageText_suffix (hvalue : o.value = .last o.output) (houtput : o.output ≠ #[]) :
    ∃ before, messageText true o = before ++ messageText false o := by
  obtain ⟨init, content, hpush⟩ := Array.exists_push_of_ne_empty houtput
  refine ⟨unlines init.toList, ?_⟩
  have hdisplay : o.value.display = content := by
    rw [hvalue, hpush, Value.last_push]
    rfl
  rw [messageText, messageText, if_pos rfl, if_neg Bool.false_ne_true, hpush, Array.toList_push,
    unlines_append, hdisplay]

/-- A run that ends inside the program answers with its last message -/
theorem Finishes.value_eq_last (h : Finishes options text o) (hvalue : o.value ≠ .outOfBounds) :
    o.value = .last o.output := by
  obtain ⟨p, _, ho⟩ := h
  exact (Program.run_eq_some_iff.1 ho).value_eq_last hvalue

/-! ## Failures -/

/-- The report of a failure has the fault as its title, and breaks off in an empty file -/
theorem failure_eq (file : String) (hspan : text = "" → d.span.isSome = true) :
    ∃ report, report.title = "Error: " ++ d.text ∧
      Answer.failure file text d =
        { status := if text = "" then 101 else 1, output := "", report := some report } := by
  refine ⟨.ofDiagnostic file text d, rfl, ?_⟩
  rw [Answer.failure]
  by_cases htext : text = ""
  · have hbreaks : breaksOff text d = true := by
      rw [breaksOff, hspan htext, htext]
      rfl
    rw [if_pos hbreaks, if_pos htext]
  · have hgoes : ¬ breaksOff text d = true := by
      simp [breaksOff, htext]
    rw [if_neg hgoes, if_neg htext]

/-- An empty file is a program of one line without an instruction, so that its run fails only if
not even this may be executed -/
theorem fails_empty_iff :
    Fails options "" d ↔
      options.limit = some 0 ∧ d = (Cause.stepLimit 0).diagnostic (some ⟨0, 0⟩) := by
  let p : Program := ⟨#[.comment], #[⟨0, 0⟩], [], .inr rfl, rfl, .nil⟩
  have hp : Program.parse "" = .ok p := by with_unfolding_all rfl
  constructor
  · intro h
    cases h with
    | parse h =>
      rw [hp] at h
      cases h
    | run hp' hd =>
      rw [hp] at hp'
      cases hp'
      -- the run executes the line and is out of bounds behind it
      have hends : Ends p 1 (.initial : State Word) (.ok ⟨.outOfBounds, .empty, #[], 1⟩) :=
        ⟨_, .step (.mk rfl rfl) (.refl _), .finished rfl⟩
      rcases hlimit : options.limit with _ | _ | m
      · rw [hlimit, Program.run_none_of_ends hends] at hd
        cases hd
      · rw [hlimit] at hd
        cases hd
        exact ⟨rfl, rfl⟩
      · rw [hlimit, Program.run_some_of_ends hends (Nat.le_add_left 1 m)] at hd
        cases hd
  · rintro ⟨hlimit, rfl⟩
    exact .run hp (hlimit ▸ rfl)

/-! ## Options without influence -/

/-- How a run ends is not a matter of what is printed -/
theorem status_ofText (options : Options) (text : String) (registers : Bool) (verbosity : Nat) :
    (Answer.ofText { options with registers, verbosity } text).map Answer.status =
      (Answer.ofText options text).map Answer.status := by
  cases hp : Program.parse text with
  | error d =>
    rw [(Fails.parse hp).answer, (Fails.parse hp).answer]
  | ok p =>
    rw [ofText_of_ok _ hp, ofText_of_ok _ hp]
    show ((p.run options.limit).map _).map _ = ((p.run options.limit).map _).map _
    rcases p.run options.limit with _ | d | o <;> rfl

/-- A limit that does not cut the run off could as well be left out -/
theorem ofText_eq_of_not_cutOff {limit : Option Nat}
    (h : ∀ d, Fails { options with limit } text d → d.kind ≠ .stepLimitExceeded) :
    Answer.ofText { options with limit } text =
      Answer.ofText { options with limit := none } text := by
  cases hp : Program.parse text with
  | error d => rw [(Fails.parse hp).answer, (Fails.parse hp).answer]
  | ok p =>
    have hcut : ¬ CutOff (p.run limit) := by
      rintro ⟨d, hd, hkind⟩
      exact h d (.run hp hd) hkind
    rw [ofText_of_ok _ hp, ofText_of_ok _ hp, Program.run_eq_run_none hcut]
    rfl

/-! ## Answers -/

/-- What a request to run a file with some text is answered.  The run fails or finishes, unless it
has neither an end nor a limit.  If the text is no program or its run fails, the answer is a report
with the fault as its title, no output and the status 1; only in an empty file, which fails exactly
if its one line may not be executed, the report breaks off with the status 101.  If the run
finishes, there is no report, the status tells whether it is out of bounds, and the output is that
of the messages and, if it is asked for, a line for each register, in the order of the bytes of the
names.  The last message, which is printed by itself if not all are asked for, is the end of all
messages.  How much is to be said and whether registers are printed has no influence on the status
or on what the run comes to, and so none on the messages; and the answer is the same under every
limit that does not cut the run off, and under none -/
theorem answer_exact (options : Options) (text : String) :
    (∀ read, read options.file = .ok text →
      (Request.run options).answer read = Answer.ofText options text) ∧
    ((∃ d, Fails options text d) ∨ (∃ o, Finishes options text o) ∨
      options.limit = none ∧ Answer.ofText options text = none) ∧
    (∀ d, Fails options text d → ∃ report, report.title = "Error: " ++ d.text ∧
      Answer.ofText options text = some
        { status := if text = "" then 101 else 1, output := "", report := some report }) ∧
    ((∃ d, Fails options "" d) ↔ options.limit = some 0) ∧
    (∀ o, Finishes options text o →
      (∃ registers : List (String × Word),
        (registers.Pairwise fun e f => Text.bytes e.1 < Text.bytes f.1) ∧
        (∀ name v, (name, v) ∈ registers ↔ o.registers.get? name = some v) ∧
        Answer.ofText options text = some
          { status := if o.value = .outOfBounds then 2 else 0
            output := messageText options.allMessages o ++
              if options.registers then registerText registers else ""
            report := none }) ∧
      (o.value ≠ .outOfBounds → o.output ≠ #[] →
        ∃ before, messageText true o = before ++ messageText false o)) ∧
    (∀ registers verbosity,
      (Answer.ofText { options with registers, verbosity } text).map Answer.status =
        (Answer.ofText options text).map Answer.status ∧
      ∀ o, Finishes { options with registers, verbosity } text o ↔ Finishes options text o) ∧
    ∀ limit, (∀ d, Fails { options with limit } text d → d.kind ≠ .stepLimitExceeded) →
      Answer.ofText { options with limit } text =
        Answer.ofText { options with limit := none } text := by
  refine ⟨?_, ?_, ?_, ?_, ?_, ?_, fun limit => ofText_eq_of_not_cutOff⟩
  · intro read hread
    rw [Request.answer]
    simp only [hread]
  · exact (fails_or_finishes options text).imp_right
      (Or.imp_right fun h => ⟨h.limit_eq_none, h.answer⟩)
  · intro d hd
    have hspan : text = "" → d.span.isSome = true := by
      rintro rfl
      rw [(fails_empty_iff.1 hd).2]
      rfl
    obtain ⟨report, htitle, hfailure⟩ := failure_eq options.file hspan
    exact ⟨report, htitle, hd.answer.trans (congrArg some hfailure)⟩
  · constructor
    · rintro ⟨d, hd⟩
      exact (fails_empty_iff.1 hd).1
    · intro hlimit
      exact ⟨_, fails_empty_iff.2 ⟨hlimit, rfl⟩⟩
  · intro o ho
    refine ⟨⟨o.registers.entries, o.registers.pairwise_bytes, ?_, ho.answer⟩, ?_⟩
    · intro name v
      exact o.registers.mem_entries_iff
    · intro hvalue houtput
      exact messageText_suffix (ho.value_eq_last hvalue) houtput
  · intro registers verbosity
    exact ⟨status_ofText options text registers verbosity, fun o => Iff.rfl⟩

/-- Not even the one line of an empty file may be executed, and there is no place to report -/
theorem answer_empty_cut_off :
    Fails ⟨"prog.asm", some 0, false, false, 0⟩ "" ((Cause.stepLimit 0).diagnostic (some ⟨0, 0⟩)) ∧
      Request.ofArgs ["prog.asm", "--max-steps", "0"] =
        .run ⟨"prog.asm", some 0, false, false, 0⟩ ∧
      (Request.ofArgs ["prog.asm", "--max-steps", "0"]).answer (single "prog.asm" "") =
        some ⟨101, "", some
          ⟨"Error: Step limit exceeded: Program did not reach 'end' within 0 steps", none⟩⟩ :=
  ⟨fails_empty_iff.2 ⟨rfl, rfl⟩, by decide, by decide⟩

end CommandLine

end RegisterMachine
