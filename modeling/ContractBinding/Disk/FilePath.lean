import ContractBinding.Text.Cut

/-!
# Paths of files

A path is the text that a user wrote, with parts between slashes. It is shown as it was written:
joining and cutting paths never tidies what is left of them.
-/

namespace ContractBinding.Disk

/-- A path as it was written. -/
structure FilePath where
  text : String
  deriving DecidableEq, Repr

namespace FilePath

/-- Whether the path begins at the root and not at the working directory. -/
def isAbsolute (p : FilePath) : Bool := p.text.toList.head? = some '/'

/-- The parts between slashes, empty ones among them. -/
def parts (p : FilePath) : List String := (Text.pieces '/' p.text.toList).map String.ofList

/-- Go on from a path: an absolute path stands for itself, and a slash is put between the two
where there is none. -/
def push (p : FilePath) (next : String) : FilePath :=
  if (FilePath.mk next).isAbsolute then ⟨next⟩
  else if p.text.toList.getLast?.all (· = '/') then ⟨p.text ++ next⟩
  else ⟨p.text ++ "/" ++ next⟩

/-- A path that is meant from a directory on. -/
def within (p base : FilePath) : FilePath := base.push p.text

/-- Drop what says nothing at the end of a reversed path: slashes and single dots. A slash or a
dot that is the whole path stays. -/
def dropIdle : List Char → List Char
  | '/' :: c :: rest => dropIdle (c :: rest)
  | '.' :: '/' :: rest => dropIdle ('/' :: rest)
  | cs => cs

/-- The path reversed, without what says nothing at its end. -/
def reversed (p : FilePath) : List Char := dropIdle p.text.toList.reverse

/-- The last part that says something, reversed. -/
def lastPart (p : FilePath) : List Char := p.reversed.takeWhile (· ≠ '/')

/-- The path up to its last part; none where it has no part. -/
def parent? (p : FilePath) : Option FilePath :=
  if p.lastPart.isEmpty then none
  else some ⟨String.ofList (dropIdle (p.reversed.dropWhile (· ≠ '/'))).reverse⟩

/-- The name at the end of a path; dots alone are no name. -/
def fileName? (p : FilePath) : Option String :=
  let last := p.lastPart
  if last.isEmpty || last = ['.'] || last = ['.', '.'] then none
  else some (String.ofList last.reverse)

/-- The name without its last extension; a dot at its start begins no extension. -/
def stemOf (name : List Char) : List Char :=
  match Text.cut? '.' name.reverse with
  | none => name
  | some (_, stem) => if stem.isEmpty then name else stem.reverse

/-- The file name without its extension; empty where there is no file name. -/
def stem (p : FilePath) : String := String.ofList (stemOf (p.fileName?.getD "").toList)

/-- The path with another extension. -/
def withExtension (p : FilePath) (extension : String) : FilePath :=
  match p.fileName? with
  | none => p
  | some name =>
    let directory := p.reversed.dropWhile (· ≠ '/')
    ⟨String.ofList (directory.reverse ++ stemOf name.toList) ++ "." ++ extension⟩

/-- The path of another name in the same directory. -/
def sibling (p : FilePath) (name : String) : FilePath :=
  match p.fileName?, p.parent? with
  | some _, some parent => parent.push name
  | _, _ => p.push name

example : (FilePath.mk "a/./b.abi/").parent? = some ⟨"a"⟩ := by decide
example : (FilePath.mk "a/b.x.abi").withExtension "ts" = ⟨"a/b.x.ts"⟩ := by decide
example : (FilePath.mk ".abi").withExtension "ts" = ⟨".abi.ts"⟩ := by decide
example : (FilePath.mk "a/").push "b" = ⟨"a/b"⟩ := by decide

end FilePath

end ContractBinding.Disk
