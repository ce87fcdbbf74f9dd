import ContractBinding.Batch.Config
import ContractBinding.Batch.Report

/-!
# Running a batch

A batch generates the code of every selected file and brings it to its output, one file after
the other in the order of their relative paths.
-/

namespace ContractBinding.Batch

open Command (Fault)

variable {m : Type → Type} [Monad m] [Disk m]

/-- Generate the code of a file and bring it to its output. -/
def process (c : Config) (check : Bool) (s : Selected) : m (Except Fault Command.Outcome) := do
  match ← Command.generateFile s.path (Command.contractName s.path) c.settings with
  | .error fault => return .error fault
  | .ok code => Command.syncOutput (c.outputPath s.names) code check

/-- The entry of a file. -/
def entryOf (c : Config) (s : Selected) (result : Except Fault Command.Outcome) : Entry :=
  let out := c.outputPath s.names
  let (status, error) : Status × Option String := match result with
    | .ok .written => (.written, none)
    | .ok .unchanged => (.unchanged, none)
    | .ok .drift => (.drift, some (Fault.outputDiffers out).message)
    | .error fault => (.failed, some fault.message)
  { abi := s.relative, out, contract := Command.contractName s.path, status, error }

/-- Run a batch. -/
def run (c : Config) (check : Bool) : m (Except Fault Report) := do
  match ← selectFiles c with
  | .error fault => return .error fault
  | .ok [] => return .error (.nothingSelected c.root)
  | .ok selected =>
    let entries ← selected.mapM fun s => do return entryOf c s (← process c check s)
    return .ok { check, entries }

end ContractBinding.Batch
