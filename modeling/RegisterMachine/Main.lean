import RegisterMachine.CommandLine.Answer
import RegisterMachine.Transcript

/-!
# `RegisterMachine.Main` — the program

The outer layer: it reads the file that is asked for, prints the answer, and
ends with its status.  A failure goes to the standard error, and so does the
transcript of a run if more than one `-v` asks for it.
-/

namespace RegisterMachine.CommandLine

/-- The text of a file -/
def readText (file : String) : IO (Except FileFault String) := do
  try
    let bytes ← IO.FS.readBinFile file
    return match String.fromUTF8? bytes with
      | some text => .ok text
      | none => .error .notUtf8
  catch e =>
    return .error <| match e with
      | .noFileOrDirectory .. => .notFound
      | .inappropriateType .. => .isDirectory
      | e => .other e.toString

/-- Shows the part of a transcript that is asked for -/
def printTranscript (options : Options) (text : String) : IO Unit := do
  if Transcript.Level.debug.verbosity ≤ options.verbosity then
    if let some (records, _) := Transcript.ofSource text options.limit then
      for record in records do
        if record.level.verbosity ≤ options.verbosity then
          IO.eprintln record.message

/-- Shows a failure -/
def printReport (report : Report) : IO Unit := do
  IO.eprintln report.title
  if let some place := report.place then
    IO.eprintln s!"  at {place}"

end RegisterMachine.CommandLine

open RegisterMachine.CommandLine in
/-- Answers the request that the arguments make -/
def main (args : List String) : IO UInt32 := do
  let request := Request.ofArgs args
  let mut contents := .ok ""
  if let .run options := request then
    contents ← readText options.file
    if let .ok text := contents then
      printTranscript options text
  match request.answer fun _ => contents with
  | none => return 1
  | some answer =>
    IO.print answer.output
    answer.report.forM printReport
    return answer.status.toUInt32
