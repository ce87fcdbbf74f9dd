import ContractBinding.Command.Run

/-!
# The program

The command line on the disk of the machine.
-/

namespace ContractBinding.Machine

open Disk (FilePath)

/-- The number of an error, which some operations negate. -/
def errorNumber (code : UInt32) : Nat := code.toInt32.toInt.natAbs

/-- The fault behind an error of the machine. -/
def faultOf : IO.Error → Disk.Fault
  | .noFileOrDirectory .. => .notFound
  | .alreadyExists .. => .alreadyExists
  | .inappropriateType _ code words =>
    if errorNumber code = 20 then .notADirectory
    else if errorNumber code = 21 then .isADirectory
    else .other words
  | error => .other (toString error)

/-- Do something, and turn an error of the machine into a fault. -/
def attempt {α : Type} (act : IO α) : IO (Except Disk.Fault α) := do
  try
    return .ok (← act)
  catch error =>
    return .error (faultOf error)

/-- Whether there is a file, a link to one not counted. -/
def isPlainFile (path : String) : IO Bool := do
  let metadata ← (← IO.FS.realPath path).metadata
  return metadata.type == .file

/-- The files below a path. A name that is no text comes here with replacement characters in it,
by which its file is not found again. -/
partial def filesBelow (path : String) : IO (List (Option (List String))) := do
  let real ← IO.FS.realPath path
  if (← real.metadata).type == .file then return [some []]
  let mut found := []
  for entry in ← real.readDir do
    let metadata? ← try pure (some (← entry.path.symlinkMetadata)) catch _ => pure none
    match metadata? with
    | none => if entry.fileName.contains '\uFFFD' then found := none :: found
    | some metadata =>
      if metadata.type == .file then found := some [entry.fileName] :: found
      else if metadata.type == .dir then
        let below ← try filesBelow entry.path.toString catch _ => pure []
        found := below.map (·.map (entry.fileName :: ·)) ++ found
  return found

/-- The number of the process; the system has a link to what it tells of it. -/
def processNumber : IO UInt32 := do
  let self ← IO.FS.realPath "/proc/self"
  return (((self.fileName.bind String.toNat?).getD 0).toUInt32)

end ContractBinding.Machine

namespace ContractBinding

open Machine in
/-- The state is the number of the next draft. -/
instance : Disk (StateT UInt64 IO) where
  workingDirectory := do return ⟨(← IO.currentDir).toString⟩
  process := processNumber
  draftNumber := modifyGet fun number => (number, number + 1)
  read path := attempt (IO.FS.readBinFile path.text)
  isFile path := try isPlainFile path.text catch _ => return false
  filesBelow path := do try filesBelow path.text catch _ => return []
  createDirectories path := attempt do
    unless path.text.isEmpty do IO.FS.createDirAll path.text
  write path bytes := attempt (IO.FS.writeBinFile path.text bytes)
  removeFile path := attempt (IO.FS.removeFile path.text)
  rename source target := attempt (IO.FS.rename source.text target.text)

end ContractBinding

/-- Run the command line of the process. -/
def main (arguments : List String) : IO UInt32 := do
  let exit : ContractBinding.Command.Exit ←
    (ContractBinding.Command.runLine arguments : StateT UInt64 IO _).run' 0
  IO.print exit.output
  unless exit.errors.isEmpty do IO.eprintln exit.errors
  return exit.code.toUInt32
