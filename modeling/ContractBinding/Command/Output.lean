import ContractBinding.Binding.Generate
import ContractBinding.Command.Fault
import ContractBinding.Hash.Sha256

/-!
# Outputs of a run

The code of a contract is generated from a file and brought to another file. An output that
already holds the code is left alone; a check only compares; and a new output takes the place of
the old one in one step, so that nobody sees half of it.
-/

namespace ContractBinding.Command

open Disk (FilePath)

variable {m : Type → Type} [Monad m] [Disk m]

/-- The contract name where none is given: the stem of the file name in Pascal case. -/
def contractName (abi : FilePath) : String := Name.pascalCase abi.stem

/-- What is generated besides the document. -/
structure Settings where
  runtimeModule : String := Binding.defaultRuntimeModule
  /-- Whether the hash of the file is shown. -/
  showsHash : Bool := true
  deriving DecidableEq, Repr

/-- The code of the bytes of a file. -/
def codeOf (abi : FilePath) (contract : String) (settings : Settings) (bytes : ByteArray) :
    Except Fault String := do
  let sourceHash := if settings.showsHash then some (Hash.Sha256.hexOfBytes bytes) else none
  let doc ← (Abi.parseBytes bytes).mapError (.parseAbi abi)
  let graph ← (Abi.resolve doc).mapError (.resolveAbi abi)
  (Binding.emit graph contract { runtimeModule := settings.runtimeModule, sourceHash }).mapError
    (.emit abi)

/-- The code of a file. -/
def generateFile (abi : FilePath) (contract : String) (settings : Settings) :
    m (Except Fault String) := do
  match ← Disk.read abi with
  | .error fault => return .error (.readAbi abi fault)
  | .ok bytes => return codeOf abi contract settings bytes

/-- What became of an output. -/
inductive Outcome where
  | written
  | unchanged
  /-- In a check: missing, or not the code. -/
  | drift
  deriving DecidableEq, Repr

/-- Put a draft in the place of a file. Where that fails, the file is removed first. -/
def putInPlace (draft out : FilePath) : m (Except Disk.Fault Unit) := do
  match ← Disk.rename draft out with
  | .ok () => return .ok ()
  | .error _ =>
    let _ ← Disk.removeFile out
    Disk.rename draft out

/-- Put a text in the place of a file: write it beside the file and rename it. -/
def replaceFile (out : FilePath) (code : String) : m (Except Fault Unit) := do
  if let some parent := out.parent? then
    if let .error fault ← Disk.createDirectories parent then
      return .error (.createDirectory parent fault)
  let draft ← Disk.nextDraft out
  match ← Disk.write draft code.toUTF8 with
  | .error fault => return .error (.writeDraft draft fault)
  | .ok () => return (← putInPlace draft out).mapError (.rename out)

/-- Bring an output up to date, or compare it in a check. -/
def syncOutput (out : FilePath) (code : String) (check : Bool) : m (Except Fault Outcome) := do
  let current ← match ← Disk.readText out with
    | .ok text => pure (some text)
    | .error .notFound => pure none
    | .error fault => return .error (.readOutput out fault)
  if current = some code then return .ok .unchanged
  else if check then return .ok .drift
  else return (← replaceFile out code).map fun _ => .written

end ContractBinding.Command
