import ContractBinding.Command.Output

/-!
# Command lines

A command line names a command and gives it options, each of them once. An option that takes a
value has it after an equals sign or as the next argument, which then must not look like an
option itself.
-/

namespace ContractBinding.Command

open Disk (FilePath)

/-- What a run is asked to do. -/
inductive Invocation where
  | generate (abi : FilePath) (contract : Option String) (out : Option FilePath)
      (settings : Settings) (check : Bool)
  | batch (config : Option FilePath) (check showsJson : Bool)
  | diagnostics
  | help
  deriving DecidableEq, Repr

/-- Why a command line is not understood. -/
inductive ArgumentFault where
  | noCommand
  | unexpected (argument : String)
  | missingOption (option : String)
  | missingValue (option : String)
  | emptyPath (option : String)
  | repeated (option : String)
  /-- A value for an option that takes none. -/
  | valueGiven (option : String)
  deriving DecidableEq, Repr

/-- The fault in words. -/
def ArgumentFault.message : ArgumentFault → String
  | .noCommand => "a command is needed: generate, batch or diagnostics"
  | .unexpected argument => "unexpected argument " ++ Text.quoted argument
  | .missingOption option => "--" ++ option ++ " is needed"
  | .missingValue option => "--" ++ option ++ " needs a value"
  | .emptyPath option => "--" ++ option ++ " needs a path"
  | .repeated option => "--" ++ option ++ " is given more than once"
  | .valueGiven option => "--" ++ option ++ " takes no value"

/-- What an option takes. -/
inductive Takes where
  | nothing
  | text
  | path
  deriving DecidableEq, Repr

/-- The options that a command knows. -/
abbrev Known := List (String × Takes)

/-- The options that have been given, with their values. -/
abbrev Given := List (String × String)

/-- The options of every command. -/
def general : Known := [("verbose", .nothing), ("help", .nothing)]

def generateOptions : Known :=
  [ ("abi", .path), ("contract-name", .text), ("out", .path), ("runtime-module", .text),
    ("no-source-hash", .nothing), ("check", .nothing) ] ++ general

def batchOptions : Known :=
  [("config", .path), ("check", .nothing), ("report-json", .nothing)] ++ general

/-- Whether an argument cannot be the value of the option before it. -/
def looksLikeOption (argument : String) : Bool :=
  match argument.toList with
  | '-' :: _ :: _ => true
  | _ => false

/-- Add an option with its value. -/
def give (given : Given) (option value : String) : Except ArgumentFault Given :=
  if (given.lookup option).isSome then .error (.repeated option)
  else .ok (given ++ [(option, value)])

/-- Add an option that takes a value. -/
def giveValue (given : Given) (option : String) (takes : Takes) (value : String) :
    Except ArgumentFault Given :=
  if takes = .path && value = "" then .error (.emptyPath option) else give given option value

/-- Add options written as letters. -/
def giveLetters (given : Given) (argument : String) : List Char → Except ArgumentFault Given
  | [] => .ok given
  | 'v' :: rest => do giveLetters (← give given "verbose" "") argument rest
  | 'h' :: rest => do giveLetters (← give given "help" "") argument rest
  | _ => .error (.unexpected argument)

/-- An argument divided into its kinds. -/
inductive Argument where
  /-- Two hyphens alone: no option follows. -/
  | separator
  | long (name : String) (value : Option String)
  | letters (cs : List Char)
  | plain
  deriving DecidableEq, Repr

/-- The kind of an argument. -/
def Argument.ofText (argument : String) : Argument :=
  match argument.toList with
  | ['-', '-'] => .separator
  | '-' :: '-' :: rest => match Text.cut? '=' rest with
    | none => .long (String.ofList rest) none
    | some (name, value) => .long (String.ofList name) (some (String.ofList value))
  | '-' :: c :: rest => .letters (c :: rest)
  | _ => .plain

/-- Read options up to the end or to the first argument that is none; that argument and those
after it are left over. A request for help ends the reading. -/
def readOptions (known : Known) (given : Given) :
    List String → Except ArgumentFault (Given × List String)
  | [] => .ok (given, [])
  | argument :: rest =>
    match Argument.ofText argument with
    | .plain => .ok (given, argument :: rest)
    | .separator => match rest with
      | [] => .ok (given, [])
      | next :: _ => .error (.unexpected next)
    | .letters cs => do
      let given ← giveLetters given argument cs
      if (given.lookup "help").isSome then return (given, [])
      readOptions known given rest
    | .long name value =>
      match known.lookup name, value with
      | none, _ => .error (.unexpected argument)
      | some .nothing, some _ => .error (.valueGiven name)
      | some .nothing, none => do
        let given ← give given name ""
        if name = "help" then return (given, [])
        readOptions known given rest
      | some takes, some value => do readOptions known (← giveValue given name takes value) rest
      | some takes, none =>
        match rest with
        | [] => .error (.missingValue name)
        | value :: rest =>
          if looksLikeOption value then .error (.missingValue name)
          else do readOptions known (← giveValue given name takes value) rest

/-- Read options and nothing else. -/
def readAll (known : Known) (arguments : List String) : Except ArgumentFault Given := do
  match ← readOptions known [] arguments with
  | (given, []) => return given
  | (_, argument :: _) => .error (.unexpected argument)

/-- Whether an option has been given. -/
def Given.has (given : Given) (option : String) : Bool := (given.lookup option).isSome

/-- The command of the options of `generate`. -/
def generateCommand (given : Given) : Except ArgumentFault Invocation :=
  match given.lookup "abi" with
  | none => .error (.missingOption "abi")
  | some abi =>
    let default : Settings := {}
    .ok <| .generate ⟨abi⟩ (given.lookup "contract-name") ((given.lookup "out").map FilePath.mk)
      { runtimeModule := (given.lookup "runtime-module").getD default.runtimeModule
        showsHash := !Given.has given "no-source-hash" }
      (Given.has given "check")

/-- The command of the options of `batch`. -/
def batchCommand (given : Given) : Invocation :=
  .batch ((given.lookup "config").map FilePath.mk) (Given.has given "check")
    (Given.has given "report-json")

/-- Read the arguments of a command. -/
def readCommand (known : Known) (command : Given → Except ArgumentFault Invocation)
    (arguments : List String) : Except ArgumentFault Invocation := do
  let given ← readAll known arguments
  if Given.has given "help" then return .help
  command given

/-- Read a command line. -/
def Invocation.ofArguments (arguments : List String) : Except ArgumentFault Invocation := do
  let (given, rest) ← readOptions general [] arguments
  if Given.has given "help" then return .help
  match rest with
  | [] => .error .noCommand
  | "generate" :: rest => readCommand generateOptions generateCommand rest
  | "batch" :: rest => readCommand batchOptions (fun given => .ok (batchCommand given)) rest
  | "diagnostics" :: rest => readCommand general (fun _ => .ok .diagnostics) rest
  | "help" :: _ => return .help
  | other :: _ => .error (.unexpected other)

example : Invocation.ofArguments ["batch", "--config=c.json", "-v"] =
    .ok (.batch (some ⟨"c.json"⟩) false false) := by rfl
example : Invocation.ofArguments ["generate", "--abi", "--check"] =
    .error (.missingValue "abi") := by rfl

end ContractBinding.Command
