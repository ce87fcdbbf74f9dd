import ContractBinding.Abi.Problem
import ContractBinding.Disk.Basic
import ContractBinding.Glob.Pattern

/-!
# Faults of a run

What can make a run of the command line fail. Every fault says what was being done, to which
path, and what went wrong there.
-/

namespace ContractBinding.Command

open Disk (FilePath)

/-- The version of the configuration records that are read. -/
def configVersion : String := "abibridge.config@0.1.0"

/-- One of the two lists of patterns of a configuration. -/
inductive Selection where
  | included
  | excluded
  deriving DecidableEq, Repr

def Selection.word : Selection → String
  | .included => "include"
  | .excluded => "exclude"

/-- Why a run failed. -/
inductive Fault where
  | readAbi (path : FilePath) (fault : Disk.Fault)
  | parseAbi (path : FilePath) (problem : Abi.Problem)
  | resolveAbi (path : FilePath) (problem : Abi.Problem)
  | emit (path : FilePath) (problem : Abi.Problem)
  | readOutput (path : FilePath) (fault : Disk.Fault)
  | createDirectory (path : FilePath) (fault : Disk.Fault)
  | writeDraft (path : FilePath) (fault : Disk.Fault)
  | rename (path : FilePath) (fault : Disk.Fault)
  /-- A check without anything to compare with. -/
  | nothingToCompare
  | outputDiffers (path : FilePath)
  | readConfig (path : FilePath) (fault : Disk.Fault)
  | parseConfig (path : FilePath) (fault : Json.ReadFault)
  | configVersion (found : String)
  | badPattern (selection : Selection) (pattern : String) (fault : Glob.Fault)
  /-- Below the root there is a file with a name on its way that is no text. -/
  | unnamedFile
  | nothingSelected (root : FilePath)
  /-- Contracts of a batch that failed. -/
  | failedContracts (count : Nat)
  deriving DecidableEq, Repr

/-- The fault in words. -/
def Fault.message : Fault → String
  | .readAbi path fault => "read ABI: " ++ path.text ++ ": " ++ fault.message
  | .parseAbi path problem => "parse ABI: " ++ path.text ++ ": " ++ problem.display
  | .resolveAbi path problem => "resolve ABI: " ++ path.text ++ ": " ++ problem.display
  | .emit path problem => "emit bindings for " ++ path.text ++ ": " ++ problem.display
  | .readOutput path fault => "read existing output: " ++ path.text ++ ": " ++ fault.message
  | .createDirectory path fault => "create output dir: " ++ path.text ++ ": " ++ fault.message
  | .writeDraft path fault => "write temp: " ++ path.text ++ ": " ++ fault.message
  | .rename path fault => "rename: " ++ path.text ++ ": " ++ fault.message
  | .nothingToCompare => "--check needs --out to compare against"
  | .outputDiffers path => "generated output differs: " ++ path.text
  | .readConfig path fault => "read config: " ++ path.text ++ ": " ++ fault.message
  | .parseConfig path fault => "parse config JSON: " ++ path.text ++ ": " ++ fault.message
  | .configVersion found =>
    "config schema_version mismatch: expected " ++ Command.configVersion ++ " got " ++
      Text.quoted found
  | .badPattern selection pattern fault =>
    "compile " ++ selection.word ++ " globs: invalid glob: " ++ Text.quoted pattern ++ ": " ++
      fault.message
  | .unnamedFile => "path contains non-utf8 component"
  | .nothingSelected root => "no ABI files matched under " ++ root.text
  | .failedContracts count => toString count ++ " contract(s) failed to generate"

end ContractBinding.Command
