import StackMachine.Main
import StackMachine.Proofs.Image.Assembled
import StackMachine.Proofs.Image.Behaviour
import StackMachine.Proofs.Machine.Limits
import StackMachine.Proofs.Machine.Underlay
import StackMachine.Proofs.Machine.Loss
import StackMachine.Proofs.Machine.Independence
import StackMachine.Proofs.Machine.Shadowing
import StackMachine.Proofs.Machine.Declarations
import StackMachine.Proofs.Machine.Bracketing
import StackMachine.Proofs.Program.Viable
import StackMachine.Proofs.Machine.Remains
import StackMachine.Proofs.Command.Sequence
import StackMachine.Proofs.Source.Lookahead
import StackMachine.Proofs.Machine.Jumps
import StackMachine.Proofs.Image.Canonical
import StackMachine.Proofs.Machine.Truncation
import StackMachine.Proofs.Machine.Termination
import StackMachine.Proofs.Machine.References
import StackMachine.Proofs.Machine.Arithmetic
import StackMachine.Proofs.Source.Numbers
import StackMachine.Proofs.Source.Floats
import StackMachine.Proofs.Atom.Diagnostic
import StackMachine.Proofs.Logging.Lines
import StackMachine.Proofs.Logging.ExitCode
import StackMachine.Proofs.Machine.Factorial
import StackMachine.Proofs.Command.Agreement
