import ContractBinding.Disk.FilePath

/-!
# Access to a disk

What the command line asks of a disk. Everything it does goes through these operations, so that
it runs on the disk of a machine and on a tree of files alike.
-/

namespace ContractBinding.Disk

/-- Why an operation on a file failed. -/
inductive Fault where
  | notFound
  | alreadyExists
  | notADirectory
  | isADirectory
  /-- The bytes of the file are no text. -/
  | notText
  | other (words : String)
  deriving DecidableEq, Repr

/-- The fault in words. -/
def Fault.message : Fault → String
  | .notFound => "No such file or directory (os error 2)"
  | .alreadyExists => "File exists (os error 17)"
  | .notADirectory => "Not a directory (os error 20)"
  | .isADirectory => "Is a directory (os error 21)"
  | .notText => "stream did not contain valid UTF-8"
  | .other words => words

/-- The name of a file that is not finished: the name it is for, the number of the process that
writes it, and its number among the drafts of that process. -/
def draftName (name : String) (process : UInt32) (number : UInt64) : String :=
  "." ++ name ++ "." ++ toString process ++ "." ++ toString number ++ ".tmp"

/-- Where a draft of a file goes, beside the file. Nobody looks whether something is there. -/
def FilePath.draft (path : FilePath) (process : UInt32) (number : UInt64) : FilePath :=
  path.sibling (draftName (path.fileName?.getD "") process number)

end Disk

/-- A disk with files in directories, a working directory in it, and a process that works there. -/
class Disk (m : Type → Type) where
  /-- The working directory, as an absolute path. -/
  workingDirectory : m Disk.FilePath
  /-- The number that the system has given the process. -/
  process : m UInt32
  /-- The next number of a draft of the process, each given once. -/
  draftNumber : m UInt64
  /-- The bytes of a file. -/
  read : Disk.FilePath → m (Except Disk.Fault ByteArray)
  /-- Whether there is a file. -/
  isFile : Disk.FilePath → m Bool
  /-- The files in a directory and below it, by the names that lead to them from there; none for
  a file that has a name on its way which is no text. A file is below itself, and below a path
  that leads nowhere there is nothing. -/
  filesBelow : Disk.FilePath → m (List (Option (List String)))
  /-- Make a directory and those it lies in, as far as they are missing. -/
  createDirectories : Disk.FilePath → m (Except Disk.Fault Unit)
  /-- Write a file, a new one or in the place of the one that is there. -/
  write : Disk.FilePath → ByteArray → m (Except Disk.Fault Unit)
  /-- Remove a file. -/
  removeFile : Disk.FilePath → m (Except Disk.Fault Unit)
  /-- Put a file in the place of another. -/
  rename : Disk.FilePath → Disk.FilePath → m (Except Disk.Fault Unit)

namespace Disk

/-- The text of a file. -/
def readText {m : Type → Type} [Monad m] [Disk m] (path : FilePath) : m (Except Fault String) := do
  match ← read path with
  | .error fault => return .error fault
  | .ok bytes => match String.fromUTF8? bytes with
    | none => return .error .notText
    | some text => return .ok text

/-- Where the next draft of a file goes. -/
def nextDraft {m : Type → Type} [Monad m] [Disk m] (path : FilePath) : m FilePath := do
  return path.draft (← process) (← draftNumber)

end Disk

end ContractBinding
