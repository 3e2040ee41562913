import RegisterMachine.CommandLine.Answer
import RegisterMachine.Proofs.Decimal
import RegisterMachine.Proofs.Location
import RegisterMachine.Proofs.Program.Spans
import RegisterMachine.Proofs.Text.Bytes

/-!
# `RegisterMachine.Proofs.CommandLine.Place` — when a report names the right place

A failure with a span is about the character at which the span starts, or the
end of the file (`Program.covers_of_parse_error`, `Program.covers_of_run`).
The report counts bytes as characters to find it, and begins no line at the end
of a file.  So the place in the report is the right one in some files only.

    file                                           place in the report
    all before the place is ASCII                  right, but for the next two
    ASCII, the place is behind the last newline    on the last line with a character
    empty                                          missing
    other characters before the place              later in the file, or `?:?`
-/

namespace RegisterMachine.CommandLine

open Machine
open Token (Cursor)

/-- A file with this text is refused, or its run fails -/
inductive Fails (options : Options) (text : String) (d : Diagnostic) : Prop
  | parse : Program.parse text = .error d → Fails options text d
  | run {p : Program} :
      Program.parse text = .ok p → p.run options.limit = some (.error d) → Fails options text d

variable {options : Options} {text : String} {d : Diagnostic}

/-- The answer about what a run has come to -/
def Answer.ofResult (options : Options) (text : String) : Except Diagnostic (Outcome Word) → Answer
  | .ok o => .success options o
  | .error d => .failure options.file text d

/-- A text that is a program is answered with what the run comes to -/
theorem ofText_of_ok {p : Program} (options : Options) (hp : Program.parse text = .ok p) :
    Answer.ofText options text = (p.run options.limit).map (.ofResult options text) := by
  unfold Answer.ofText
  rw [hp]
  rfl

theorem Fails.answer (h : Fails options text d) :
    Answer.ofText options text = some (.failure options.file text d) := by
  cases h with
  | parse h =>
    unfold Answer.ofText
    rw [h]
  | run hp hd =>
    rw [ofText_of_ok options hp, hd]
    rfl

theorem Fails.covers (h : Fails options text d) {s : Span} (hs : d.span = some s) :
    (Source.start text).Covers s := by
  cases h with
  | parse h => exact Program.covers_of_parse_error h hs
  | run hp hd => exact Program.covers_of_run hp hd hs

/-! ## Places as they are written -/

theorem toList_placeText (file : String) (l : Location) :
    (placeText file (some l)).toList =
      file.toList ++ ':' :: (Decimal.ofNat l.line ++ ':' :: Decimal.ofNat l.column) := by
  simp [placeText, Decimal.toList_text]

/-- A line and a column can be told apart by the colon between them -/
theorem eq_of_digits {l m : Location}
    (h : Decimal.ofNat l.line ++ ':' :: Decimal.ofNat l.column =
      Decimal.ofNat m.line ++ ':' :: Decimal.ofNat m.column) : l = m := by
  have hsplit : ∀ k : Location,
      (Decimal.ofNat k.line ++ ':' :: Decimal.ofNat k.column).takeWhile (· != ':') =
          Decimal.ofNat k.line ∧
        (Decimal.ofNat k.line ++ ':' :: Decimal.ofNat k.column).dropWhile (· != ':') =
          ':' :: Decimal.ofNat k.column := by
    intro k
    refine Token.takeWhile_append_of_stop ?_ (by simp)
    intro c hc
    rw [bne_iff_ne]
    rintro rfl
    exact Decimal.not_mem_ofNat (by decide) k.line hc
  obtain ⟨hline, hcolumn⟩ := hsplit l
  rw [h, (hsplit m).1] at hline
  rw [h, (hsplit m).2] at hcolumn
  cases l
  cases m
  cases Decimal.ofNat_injective hline
  cases Decimal.ofNat_injective (List.cons.inj hcolumn).2
  rfl

/-- Different places are written differently -/
theorem placeText_inj {file : String} {l : Option Location} {m : Location} :
    placeText file l = placeText file (some m) ↔ l = some m := by
  refine ⟨?_, fun h => h ▸ rfl⟩
  intro h
  have h := congrArg String.toList h
  rw [toList_placeText] at h
  cases l with
  | none =>
    have hnone : (placeText file none).toList = file.toList ++ [':', '?', ':', '?'] := by
      simp [placeText]
    rw [hnone] at h
    obtain ⟨c, cs, hcs, hc, _⟩ := Decimal.ofNat_digits m.line
    have hdigits := (List.cons.inj (List.append_cancel_left h)).2
    rw [hcs] at hdigits
    rw [← (List.cons.inj hdigits).1] at hc
    exact absurd hc (by decide)
  | some l =>
    rw [toList_placeText] at h
    exact congrArg some (eq_of_digits (List.cons.inj (List.append_cancel_left h)).2)

/-! ## Places in a report -/

/-- The place in the report of a failure is the one behind the text before its span exactly if
there is text, what is before is ASCII, and it is not the whole text with a newline at its end -/
theorem failure_place_exact {read : String → Except FileFault String} {args : List String}
    {s : Span} (hargs : Request.ofArgs args = .run options) (hread : read options.file = .ok text)
    (hlines : Location.NewlinesOnly text.toList) (hfails : Fails options text d)
    (hspan : d.span = some s) :
    ∃ before rest answer report,
      text.toList = before ++ rest ∧ s.start = Text.byteLength before ∧
      (Request.ofArgs args).answer read = some answer ∧ answer.report = some report ∧
      report.title = "Error: " ++ d.text ∧
      (report.place = some (placeText options.file (some (Location.behind before))) ↔
        text ≠ "" ∧ Text.Ascii before ∧ ¬ (rest = [] ∧ before.getLast? = some '\n')) := by
  obtain ⟨before, rest, hsplit, hstart⟩ := (hfails.covers hspan).start
  have hsplit : text.toList = before ++ rest := hsplit
  have hstart : s.start = Text.byteLength before := hstart.trans (Nat.zero_add _)
  have hanswer : (Request.ofArgs args).answer read = some (.failure options.file text d) := by
    rw [hargs, Request.answer]
    simp only [hread]
    exact hfails.answer
  refine ⟨before, rest, _, _, hsplit, hstart, hanswer, rfl, rfl, ?_⟩
  rw [Report.ofDiagnostic, hspan]
  by_cases hempty : text = ""
  · simp [breaksOff, hempty, hspan]
  · have hgoes : ¬ breaksOff text d = true := by
      simp [breaksOff, hempty]
    rw [hsplit] at hlines
    rw [if_neg hgoes, Option.map_some, Option.some.injEq, placeText_inj, Location.find?, hsplit,
      hstart, Location.advance_eq_behind_iff hlines (Text.length_le_byteLength before),
      Text.byteLength_eq_length_iff]
    exact (and_iff_right hempty).symm

/-- A directory with a single file in it -/
def single (name text : String) : String → Except FileFault String := fun file =>
  if file = name then .ok text else .error .notFound

/-- The place is right behind a comment in ASCII -/
theorem failure_place_ascii :
    ∃ before rest answer report,
      ";\n@".toList = before ++ rest ∧ 2 = Text.byteLength before ∧
      (Request.ofArgs ["prog.asm"]).answer (single "prog.asm" ";\n@") = some answer ∧
      answer.report = some report ∧
      report.title = "Error: Parse error: Unknown character '@'" ∧
      (report.place = some (placeText "prog.asm" (some (Location.behind before))) ↔
        ";\n@" ≠ "" ∧ Text.Ascii before ∧ ¬ (rest = [] ∧ before.getLast? = some '\n')) := by
  have hargs : Request.ofArgs ["prog.asm"] =
      .run ⟨"prog.asm", some Machine.defaultLimit, false, false, 0⟩ := by decide
  have hparse : Program.parse ";\n@" =
      .error ((Cause.unknownCharacter '@').diagnostic (some ⟨2, 3⟩)) := rfl
  have hread : single "prog.asm" ";\n@" "prog.asm" = .ok ";\n@" := rfl
  exact failure_place_exact hargs hread (by decide) (.parse hparse) rfl

/-- A letter of two bytes in a comment moves the place on the next line by one column -/
theorem failure_place_accent :
    Program.parse "; é\n@" = .error ((Cause.unknownCharacter '@').diagnostic (some ⟨5, 6⟩)) ∧
      Text.byteLength "; é\n".toList = 5 ∧ Location.behind "; é\n".toList = ⟨2, 1⟩ ∧
      (Request.ofArgs ["prog.asm"]).answer (single "prog.asm" "; é\n@") =
        some ⟨1, "", some ⟨"Error: Parse error: Unknown character '@'", some "prog.asm:2:2"⟩⟩ :=
  ⟨rfl, by decide, by decide, by decide⟩

end RegisterMachine.CommandLine
