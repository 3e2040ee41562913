import RegisterMachine.CommandLine.Request
import RegisterMachine.Location

/-!
# `RegisterMachine.CommandLine.Answer` — what the program says to a request

    exit status   meaning
    0             the run has reached an end, or version or help were asked for
    1             the file cannot be read, says no program, or its run fails
    2             the run has left the program, or the arguments make no sense
    101           a failure is about a place in an empty file

What a run prints is decided when it has ended: a run that fails prints no
message, however many it has sent.  A failure is reported with the place it is
about, as a line and a column of the file.  The place is found by taking the
span's start, which counts bytes, for a number of characters; so text before it
that is not ASCII moves the place on, at worst beyond the end.  In an empty file
there is no line to point at: the report breaks off behind its title, and the
status says so.
-/

namespace RegisterMachine.CommandLine

/-- Why a file cannot be read -/
inductive FileFault where
  | notFound
  | isDirectory
  | notUtf8
  | other (reason : String)
  deriving DecidableEq

/-- Why a file cannot be read, in words -/
def FileFault.reason : FileFault → String
  | .notFound => "No such file or directory (os error 2)"
  | .isDirectory => "Is a directory (os error 21)"
  | .notUtf8 => "stream did not contain valid UTF-8"
  | .other reason => reason

/-- A failure as it is shown: its first line, and where it is if that is known -/
structure Report where
  title : String
  place : Option String
  deriving DecidableEq

/-- What the program prints and how it ends -/
structure Answer where
  status : Nat
  output : String
  report : Option Report
  deriving DecidableEq

/-! ## Failures -/

/-- A location in a file, or the marks for one that is not there -/
def placeText (file : String) : Option Location → String
  | some l => file ++ ":" ++ Decimal.text l.line ++ ":" ++ Decimal.text l.column
  | none => file ++ ":?:?"

/-- Whether a report breaks off behind its title: it has to show a line of a text without any -/
def breaksOff (text : String) (d : Diagnostic) : Bool :=
  text.isEmpty && d.span.isSome

/-- The report of a diagnostic about a file with the given text -/
def Report.ofDiagnostic (file text : String) (d : Diagnostic) : Report where
  title := "Error: " ++ d.text
  place :=
    if breaksOff text d then none
    else d.span.map fun s => placeText file (Location.find? text s.start)

/-- The answer that reports a failure -/
def Answer.failure (file text : String) (d : Diagnostic) : Answer where
  status := if breaksOff text d then 101 else 1
  output := ""
  report := some (.ofDiagnostic file text d)

/-! ## Success -/

/-- Lines, each with its end -/
def unlines (lines : List String) : String :=
  String.join (lines.map (· ++ "\n"))

/-- The lines about the messages of a run -/
def messageLines (options : Options) (outcome : Outcome Word) : List String :=
  if options.allMessages then outcome.output.toList else [outcome.value.display]

/-- The lines about the registers after a run -/
def registerLines (options : Options) (outcome : Outcome Word) : List String :=
  if options.registers then
    outcome.registers.contents.map fun (name, n) => name ++ " = " ++ Decimal.text n
  else []

/-- The answer that shows the outcome of a run -/
def Answer.success (options : Options) (outcome : Outcome Word) : Answer where
  status := if outcome.value = .outOfBounds then 2 else 0
  output := unlines (messageLines options outcome ++ registerLines options outcome)
  report := none

/-! ## Requests -/

/-- The answer to a request to run a file, given its text, if there is one -/
def Answer.ofText (options : Options) (text : String) : Option Answer :=
  match Program.parse text with
  | .error d => some (.failure options.file text d)
  | .ok p =>
    (p.run options.limit).map fun
      | .ok outcome => .success options outcome
      | .error d => .failure options.file text d

/-- What is said about the program itself -/
def versionText : String :=
  "regasm 0.1.0\n"

/-- What is said to someone who asks for help -/
def helpText : String :=
  unlines
    ["Usage: regasm [OPTIONS] <FILE>",
     "",
     "Arguments:",
     "  <FILE>  ",
     "",
     "Options:",
     "      --max-steps <MAX_STEPS>  Maximum number of instructions to execute before giving up "
       ++ "[default: 10000000]",
     "      --no-step-limit          Run without a step limit",
     "  -r, --registers              Print the final register values",
     "  -a, --all-messages           Print every emitted message instead of only the last one",
     "  -v, --verbose...             Increase log verbosity, can be repeated",
     "  -h, --help                   Print help",
     "  -V, --version                Print version"]

/-- The answer to a request, given what reading a file comes to; none if a run does not end -/
def Request.answer (read : String → Except FileFault String) : Request → Option Answer
  | .version => some ⟨0, versionText, none⟩
  | .help => some ⟨0, helpText, none⟩
  | .misuse => some ⟨2, "", none⟩
  | .run options =>
    match read options.file with
    | .ok text => Answer.ofText options text
    | .error fault =>
      some (.failure options.file "" ((Cause.unreadable fault.reason).diagnostic none))

end RegisterMachine.CommandLine
