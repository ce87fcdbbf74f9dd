import ContractBinding.Json.Record
import ContractBinding.Text.Quoted
import ContractBinding.Type.Expr

/-!
# Problems of a contract document

What is wrong with a document is a problem with its cause. Every problem has a code; the code
decides the phase it belongs to and the help that is given with it.
-/

namespace ContractBinding.Abi

/-- The steps on the way from a document to generated code. -/
inductive Phase where
  | parse
  | resolve
  | emit
  deriving DecidableEq, Repr

def Phase.word : Phase → String
  | .parse => "Parse"
  | .resolve => "Resolve"
  | .emit => "Emit"

/-- The code of a problem. -/
inductive Code where
  | parseError
  | duplicateDeclaration
  | emptyName
  | missingBase
  | baseCycle
  | duplicateField
  | unresolvedType
  | aliasCycle
  | malformedType
  | emptyVariant
  | unknownActionType
  | unknownTableType
  | unresolvedAtEmit
  | invalidContractName
  deriving DecidableEq, Repr

namespace Code

/-- Every code, by number. -/
def all : List Code :=
  [.parseError, .duplicateDeclaration, .emptyName, .missingBase, .baseCycle, .duplicateField,
   .unresolvedType, .aliasCycle, .malformedType, .emptyVariant, .unknownActionType,
   .unknownTableType, .unresolvedAtEmit, .invalidContractName]

/-- The written form of a code. -/
def text : Code → String
  | .parseError => "ABB0001"
  | .duplicateDeclaration => "ABB0100"
  | .emptyName => "ABB0101"
  | .missingBase => "ABB0110"
  | .baseCycle => "ABB0111"
  | .duplicateField => "ABB0112"
  | .unresolvedType => "ABB0120"
  | .aliasCycle => "ABB0121"
  | .malformedType => "ABB0122"
  | .emptyVariant => "ABB0123"
  | .unknownActionType => "ABB0130"
  | .unknownTableType => "ABB0131"
  | .unresolvedAtEmit => "ABB0200"
  | .invalidContractName => "ABB0201"

/-- The phase in which a code arises. -/
def phase : Code → Phase
  | .parseError => .parse
  | .unresolvedAtEmit | .invalidContractName => .emit
  | _ => .resolve

/-- The problem in general terms. -/
def summary : Code → String
  | .parseError => "failed to parse ABI document"
  | .duplicateDeclaration => "duplicate declaration name"
  | .emptyName => "declaration has an empty name"
  | .missingBase => "struct base does not exist"
  | .baseCycle => "struct base chain is cyclic"
  | .duplicateField => "duplicate field after base merge"
  | .unresolvedType => "type reference does not resolve"
  | .aliasCycle => "type alias chain is cyclic"
  | .malformedType => "malformed type token"
  | .emptyVariant => "variant declares no branch types"
  | .unknownActionType => "action type is not a struct"
  | .unknownTableType => "table row type is not a struct"
  | .unresolvedAtEmit => "unresolved reference during emission"
  | .invalidContractName => "contract name is not a valid identifier"

/-- What to do about it, where there is advice. -/
def help? : Code → Option String
  | .parseError => some ("The ABI must be a JSON object; `types`, `structs`, `actions`, " ++
      "`tables` and `variants` must be arrays.")
  | .duplicateDeclaration => some ("Aliases, structs and variants share one namespace; " ++
      "rename one of the declarations.")
  | .baseCycle => some "Remove the `base` link that closes the cycle."
  | .unresolvedType => some ("Declare the missing struct, alias or variant, or fix the " ++
      "spelling of the type.")
  | .invalidContractName => some ("Pass --contract-name with a name made of ASCII letters, " ++
      "digits and '_'.")
  | _ => none

/-- The row of a code in the catalog. -/
def catalogRow (code : Code) : String :=
  "| " ++ code.text ++ " | " ++ code.phase.word ++ " | " ++ code.summary ++ " | " ++
    code.help?.getD "" ++ " |\n"

end Code

/-- The catalog of all codes, as a table. -/
def catalog : String :=
  "# abibridge diagnostics catalog\n\n" ++
  "This document is generated from `crates/abibridge-core/src/diagnostics.rs`.\n\n" ++
  "| Code | Phase | Message | Help |\n" ++
  "| ---- | ----- | ------- | ---- |\n" ++
  String.join (Code.all.map Code.catalogRow)

/-- The kinds of named entries of a document. -/
inductive EntryKind where
  | alias
  | struct
  | variant
  | action
  | table
  deriving DecidableEq, Repr

def EntryKind.word : EntryKind → String
  | .alias => "type alias"
  | .struct => "struct"
  | .variant => "variant"
  | .action => "action"
  | .table => "table"

/-- A place in a document that a problem points at. -/
inductive Site where
  | entry (kind : EntryKind) (name : String)
  | structField (struct field : String)
  | actionField (action field : String)
  deriving DecidableEq, Repr

def Site.text : Site → String
  | .entry kind name => kind.word ++ " " ++ name
  | .structField struct field => "struct " ++ struct ++ " field " ++ field
  | .actionField action field => "action " ++ action ++ " field " ++ field

/-- What is wrong with a document. -/
inductive Problem where
  /-- The text is no document. -/
  | unreadable (fault : Json.ReadFault)
  /-- The bytes are no text. -/
  | notUtf8
  | emptyName (kind : EntryKind)
  /-- Aliases, structs and variants share their names. -/
  | duplicateType (kind : EntryKind) (name : String) (earlier : EntryKind)
  /-- Two actions or two tables of one name. -/
  | duplicateEntry (kind : EntryKind) (name : String)
  | missingBase (struct base : String)
  | baseCycle (struct base : String)
  | duplicateField (struct field declaredIn inheritedFrom : String)
  | unknownType (site : Site) (name : String)
  | aliasCycle (name next : String)
  | malformedType (site : Site) (token : MalformedToken)
  /-- A mark of a field on the type of an alias or a branch. -/
  | markedType (site : Site) (token : String)
  | emptyVariant (variant : String)
  | actionType (action type : String)
  | rowType (table type : String)
  /-- A type that an edited graph refers to and does not declare. -/
  | danglingType (site : Site) (name : String)
  | danglingBase (struct base : String)
  | danglingRow (table row : String)
  | contractName (name : String)
  deriving DecidableEq, Repr

namespace Problem

/-- The code of a problem. -/
def code : Problem → Code
  | .unreadable _ | .notUtf8 => .parseError
  | .emptyName _ => .emptyName
  | .duplicateType .. | .duplicateEntry .. => .duplicateDeclaration
  | .missingBase .. => .missingBase
  | .baseCycle .. => .baseCycle
  | .duplicateField .. => .duplicateField
  | .unknownType .. => .unresolvedType
  | .aliasCycle .. => .aliasCycle
  | .malformedType .. | .markedType .. => .malformedType
  | .emptyVariant _ => .emptyVariant
  | .actionType .. => .unknownActionType
  | .rowType .. => .unknownTableType
  | .danglingType .. | .danglingBase .. | .danglingRow .. => .unresolvedAtEmit
  | .contractName _ => .invalidContractName

/-- The place a problem points at. -/
def site? : Problem → Option Site
  | .unreadable _ | .notUtf8 | .emptyName _ | .contractName _ => none
  | .duplicateType kind name _ | .duplicateEntry kind name => some (.entry kind name)
  | .missingBase struct _ | .baseCycle struct _ | .duplicateField struct .. |
    .danglingBase struct _ => some (.entry .struct struct)
  | .unknownType site _ | .malformedType site _ | .markedType site _ |
    .danglingType site _ => some site
  | .aliasCycle name _ => some (.entry .alias name)
  | .emptyVariant variant => some (.entry .variant variant)
  | .actionType action _ => some (.entry .action action)
  | .rowType table _ | .danglingRow table _ => some (.entry .table table)

/-- What stands in front of the details of an unreadable text. -/
def unreadableIntro : String := "invalid ABI JSON: "

/-- What stands in front of the details of unreadable bytes. -/
def notUtf8Intro : String := "ABI is not UTF-8: "

/-- The problem in words. -/
def message : Problem → String
  | .unreadable fault => unreadableIntro ++ fault.message
  | .notUtf8 => notUtf8Intro ++ "the bytes are not a text"
  | .emptyName kind => "a " ++ kind.word ++ " has an empty name"
  | .duplicateType _ name earlier =>
    "name `" ++ name ++ "` is already declared as a " ++ earlier.word
  | .duplicateEntry kind name => kind.word ++ " `" ++ name ++ "` is declared more than once"
  | .missingBase _ base => "base `" ++ base ++ "` is not a struct in this document"
  | .baseCycle _ base => "base chain cycle involving " ++ base
  | .duplicateField _ field declaredIn inheritedFrom =>
    "field `" ++ field ++ "` from `" ++ declaredIn ++ "` duplicates the one inherited from `" ++
      inheritedFrom ++ "`"
  | .unknownType _ name | .danglingType _ name => "unknown type `" ++ name ++ "`"
  | .aliasCycle _ next => "alias chain cycle involving " ++ next
  | .malformedType _ token => token.message
  | .markedType _ token =>
    "`$` and `?` are only allowed on struct fields, got " ++ Text.quoted token
  | .emptyVariant _ => "variant declares no branch types"
  | .actionType _ type => "type `" ++ type ++ "` does not name a struct"
  | .rowType _ type => "row type `" ++ type ++ "` does not name a struct"
  | .danglingBase _ base => "unknown base struct `" ++ base ++ "`"
  | .danglingRow _ row => "unknown row struct `" ++ row ++ "`"
  | .contractName name =>
    "contract name " ++ Text.quoted name ++ " is not a TypeScript identifier"

/-- The whole report: code and phase, place, message, help. -/
def display (p : Problem) : String :=
  p.code.text ++ " " ++ p.code.phase.word ++ ": " ++
    (p.site?.map fun site => site.text ++ ": ").getD "" ++ p.message ++
    (p.code.help?.map fun help => "\n  help: " ++ help).getD ""

end Problem

end ContractBinding.Abi
