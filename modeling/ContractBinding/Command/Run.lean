import ContractBinding.Batch.Run
import ContractBinding.Command.Arguments

/-!
# Runs of the command line

A run does what its command line asks for and ends with an exit code: zero if all went well, one
if something failed, two if the command line was not understood.
-/

namespace ContractBinding.Command

open Disk (FilePath)

variable {m : Type → Type} [Monad m] [Disk m]

/-- How a run ends. -/
structure Ending where
  /-- The text on standard output. -/
  output : String := ""
  /-- What failed, if something did. -/
  failure : Option Fault := none
  deriving DecidableEq, Repr

namespace Ending

/-- A run that prints a text. -/
def printed (text : String) : Ending := { output := text }

/-- A run that failed. -/
def failed (fault : Fault) : Ending := { failure := some fault }

end Ending

/-- Generate the code of one file, for standard output or for an output file. -/
def runGenerate (abi : FilePath) (contract : Option String) (out : Option FilePath)
    (settings : Settings) (check : Bool) : m Ending := do
  match ← generateFile abi (contract.getD (contractName abi)) settings with
  | .error fault => return .failed fault
  | .ok code =>
    match out with
    | none => return if check then .failed .nothingToCompare else .printed code
    | some out =>
      match ← syncOutput out code check with
      | .error fault => return .failed fault
      | .ok .drift => return .failed (.outputDiffers out)
      | .ok .written | .ok .unchanged => return {}

/-- Run a batch and print its report. -/
def runBatch (config : Option FilePath) (check showsJson : Bool) : m Ending := do
  match ← Batch.Config.load config with
  | .error fault => return .failed fault
  | .ok config =>
    match ← Batch.run config check with
    | .error fault => return .failed fault
    | .ok report =>
      return {
        output := if showsJson then report.jsonText else report.text
        failure := if report.ok then none else some (.failedContracts report.failed) }

/-- What is printed on a request for help. -/
def usage : String :=
  "Typed TypeScript bindings from contract ABIs.\n\n" ++
  "generate --abi P [--contract-name N] [--out P] [--runtime-module M] [--no-source-hash] " ++
  "[--check]\nbatch [--config P] [--check] [--report-json]\ndiagnostics\n"

/-- Do what a command asks for. -/
def Invocation.run : Invocation → m Ending
  | .generate abi contract out settings check => runGenerate abi contract out settings check
  | .batch config check showsJson => runBatch config check showsJson
  | .diagnostics => return .printed Abi.catalog
  | .help => return .printed usage

/-- What a run leaves behind for whoever started it. -/
structure Exit where
  code : UInt8
  output : String
  errors : String
  deriving DecidableEq, Repr

/-- Run a command line. -/
def runLine (arguments : List String) : m Exit := do
  match Invocation.ofArguments arguments with
  | .error fault => return { code := 2, output := "", errors := fault.message }
  | .ok command =>
    let ending ← command.run
    return match ending.failure with
      | none => { code := 0, output := ending.output, errors := "" }
      | some fault => { code := 1, output := ending.output, errors := fault.message }

end ContractBinding.Command
