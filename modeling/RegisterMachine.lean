import RegisterMachine.Main
import RegisterMachine.Proofs.CommandLine.Outcome
import RegisterMachine.Proofs.Machine.CallStack
import RegisterMachine.Proofs.Machine.Control
import RegisterMachine.Proofs.Machine.Extension
import RegisterMachine.Proofs.Machine.Ideal
import RegisterMachine.Proofs.Machine.Insertion
import RegisterMachine.Proofs.Machine.Termination
import RegisterMachine.Proofs.Program.Layout
import RegisterMachine.Proofs.Program.RoundTrip
import RegisterMachine.Proofs.Program.Concatenation
import RegisterMachine.Proofs.Machine.Silence
import RegisterMachine.Proofs.Machine.Messages
import RegisterMachine.Proofs.Machine.Writes
import RegisterMachine.Proofs.Machine.Atomicity
import RegisterMachine.Proofs.Machine.Comparison
import RegisterMachine.Proofs.Transcript.Records
import RegisterMachine.Proofs.Machine.Arithmetic
import RegisterMachine.Proofs.Machine.Frame
import RegisterMachine.Proofs.Program.Alignment
import RegisterMachine.Proofs.Template.Scanning
import RegisterMachine.Proofs.Template.Quotes
import RegisterMachine.Proofs.Template.Interpolation
import RegisterMachine.Proofs.Token.Language
import RegisterMachine.Proofs.Token.Writing
import RegisterMachine.Proofs.Token.Resume
import RegisterMachine.Proofs.Machine.Commutation
import RegisterMachine.Proofs.Registers.Canonical
