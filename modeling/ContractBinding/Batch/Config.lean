import ContractBinding.Command.Output
import ContractBinding.Glob.Match
import ContractBinding.Json.Record

/-!
# Batch configurations

A configuration says which files a batch reads, where the outputs go and what is generated. It
is read from a closed record; paths in it are meant from the directory of its file on, and what
it leaves out has a default.
-/

namespace ContractBinding.Batch

open Command (Fault Settings)
open Disk (FilePath)

/-- The file that a configuration is read from where none is named. -/
def defaultFileName : String := "abibridge.json"

/-- What a batch does. -/
structure Config where
  /-- Where the files are looked for. -/
  root : FilePath
  /-- Where the outputs go; without it each goes next to its file. -/
  outputRoot : Option FilePath := none
  included : List String := ["**/*.abi"]
  excluded : List String := ["**/node_modules/**", "**/target/**"]
  settings : Settings := {}
  deriving DecidableEq, Repr

/-- The record of a configuration. -/
structure Entries where
  version : String
  root : Option String
  outputRoot : Option String
  included : Option (List String)
  excluded : List String
  runtimeModule : Option String
  showsHash : Option Bool
  deriving DecidableEq, Repr

open Json Json.Slot in
/-- Decode the record of a configuration. -/
def Entries.ofWritten? (w : Written) : Option Entries := do
  let [version, root, outputRoot, included, excluded, runtimeModule, showsHash] ←
    w.slots? ["schema_version", "abi_root", "out_dir", "include", "exclude", "runtime_module",
      "embed_source_hash"] true | none
  let version ← required Written.text? version
  let root ← withDefault none (Written.nullable Written.text?) root
  let outputRoot ← withDefault none (Written.nullable Written.text?) outputRoot
  let included ← withDefault none (Written.nullable (Written.list? Written.text?)) included
  let excluded ← withDefault [] (Written.list? Written.text?) excluded
  let runtimeModule ← withDefault none (Written.nullable Written.text?) runtimeModule
  let showsHash ← withDefault none (Written.nullable Written.bool?) showsHash
  some { version, root, outputRoot, included, excluded, runtimeModule, showsHash }

/-- The configuration of a record in a directory. -/
def Entries.config (e : Entries) (base : FilePath) : Config :=
  let default : Config := { root := base }
  { root := (e.root.map base.push).getD base
    outputRoot := e.outputRoot.map base.push
    included := e.included.getD default.included
    excluded := if e.excluded.isEmpty then default.excluded else e.excluded
    settings := {
      runtimeModule := e.runtimeModule.getD default.settings.runtimeModule
      showsHash := e.showsHash.getD default.settings.showsHash } }

namespace Config

/-- The configuration in the bytes of a file. -/
def ofBytes (file : FilePath) (bytes : ByteArray) : Except Fault Config := do
  let text ← match String.fromUTF8? bytes with
    | none => .error (.parseConfig file .notJson)
    | some text => .ok text
  let entries ← (Json.Written.decodeText Entries.ofWritten? text).mapError (.parseConfig file)
  if Text.trim entries.version ≠ Command.configVersion then
    .error (.configVersion entries.version)
  else .ok (entries.config (file.parent?.getD file))

/-- The configuration in a file. -/
def ofFile {m : Type → Type} [Monad m] [Disk m] (file : FilePath) : m (Except Fault Config) := do
  match ← Disk.read file with
  | .error fault => return .error (.readConfig file fault)
  | .ok bytes => return ofBytes file bytes

/-- The configuration of a named file, or of the default file in the working directory; without
that, every default. -/
def load {m : Type → Type} [Monad m] [Disk m] (named : Option FilePath) :
    m (Except Fault Config) := do
  let here ← Disk.workingDirectory
  match named with
  | some path => ofFile (path.within here)
  | none =>
    let file := here.push defaultFileName
    if ← Disk.isFile file then ofFile file
    else return .ok { root := here }

/-- Where the code of a selected file goes: the same names under the root of the outputs, with
another extension. -/
def outputPath (c : Config) (names : List String) : FilePath :=
  let root := c.outputRoot.getD c.root
  let relative := if names.isEmpty then [""] else names
  (relative.foldl FilePath.push root).withExtension "ts"

end Config

/-- The patterns of a selection. -/
def patterns (selection : Command.Selection) (texts : List String) :
    Except Fault (List Glob.Pattern) :=
  texts.mapM fun text => (Glob.Pattern.parse text).mapError (.badPattern selection text)

/-- A file that a batch has selected. -/
structure Selected where
  /-- The names that lead to the file from the root. -/
  names : List String
  path : FilePath
  deriving DecidableEq, Repr

/-- The names with slashes between them. -/
def Selected.relative (s : Selected) : String := "/".intercalate s.names

/-- The selected files, by relative path. -/
def select (c : Config) (included excluded : List Glob.Pattern) (files : List (List String)) :
    List Selected :=
  let all := files.map fun names => ({ names, path := names.foldl FilePath.push c.root } : Selected)
  let chosen := all.filter fun s =>
    Glob.anyMatches included s.relative && !Glob.anyMatches excluded s.relative
  chosen.mergeSort fun a b => a.relative ≤ b.relative

/-- The names of files, all of which have to be texts. -/
def namesOf (files : List (Option (List String))) : Except Fault (List (List String)) :=
  files.mapM fun names? => names?.elim (.error .unnamedFile) .ok

/-- The files that a configuration selects. A file that could not be named in a report ends the
batch, also where the patterns would not have selected it. -/
def selectFiles {m : Type → Type} [Monad m] [Disk m] (c : Config) :
    m (Except Fault (List Selected)) := do
  match patterns .included c.included, patterns .excluded c.excluded with
  | .error fault, _ => return .error fault
  | _, .error fault => return .error fault
  | .ok included, .ok excluded =>
    return (namesOf (← Disk.filesBelow c.root)).map (select c included excluded)

end ContractBinding.Batch
