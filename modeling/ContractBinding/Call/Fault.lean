import ContractBinding.Host.ValuePath
import ContractBinding.Json.Printer

/-!
# Faults of a call

What can go wrong between a caller and a contract: the arguments miss what the action takes, a
row holds a value that its type does not have, a name or a variant tag is unknown, or the chain
refuses.
-/

namespace ContractBinding

/-- How the arguments of a call miss what is taken. -/
inductive Mismatch where
  /-- Not between the least and the greatest number of positional arguments. -/
  | count (least most given : Nat)
  | emptySlot (field : String)
  | missingField (field : String)
  | unknownField (declared : Nat) (key : String)
  /-- Positional arguments where one object is taken. -/
  | notAnObject (given : Nat)
  /-- More than one argument to a table. -/
  | tooManyOptions (given : Nat)
  /-- The argument of a table is no set of options. -/
  | notOptions
  deriving DecidableEq, Repr

namespace Mismatch

/-- What is taken. -/
def expected : Mismatch → String
  | .count least most _ =>
    if least = most then toString most ++ " argument(s)"
    else toString least ++ " to " ++ toString most ++ " argument(s)"
  | .emptySlot field => "a value for `" ++ field ++ "`"
  | .missingField field => "field `" ++ field ++ "`"
  | .unknownField declared _ => "only the " ++ toString declared ++ " declared field(s)"
  | .notAnObject _ => "a single params object"
  | .tooManyOptions _ => "at most 1 argument (GetTableRowsOptions)"
  | .notOptions => "GetTableRowsOptions"

/-- What was given. -/
def given : Mismatch → String
  | .count _ _ given => toString given
  | .emptySlot _ => "none"
  | .missingField _ => "no value"
  | .unknownField _ key => "unknown field `" ++ key ++ "`"
  | .notAnObject given => toString given ++ " positional argument(s)"
  | .tooManyOptions given => toString given ++ " positional argument(s)"
  | .notOptions => "another value"

end Mismatch

/-- What a type asks of a value. -/
inductive Expectation where
  | object
  | present
  | list
  | pair
  | flag
  | moment
  | asset
  | dataMember
  deriving DecidableEq, Repr

/-- The expectation in words. -/
def Expectation.text : Expectation → String
  | .object => "an object"
  | .present => "a value"
  | .list => "an array"
  | .pair => "a [discriminant, value] pair"
  | .flag => "0 or 1"
  | .moment => "a YYYY-MM-DDTHH:MM:SS timestamp"
  | .asset => "an `<amount> <SYMBOL>` asset"
  | .dataMember => "a `data` member"

/-- What a name was looked up for. -/
inductive NameKind where
  | action
  | table
  | method
  | rowType
  deriving DecidableEq, Repr

/-- The kind in words. -/
def NameKind.text : NameKind → String
  | .action => "action"
  | .table => "table"
  | .method => "method"
  | .rowType => "table row type"

/-- What can go wrong in a call. -/
inductive CallFault where
  | arity (callee : String) (mismatch : Mismatch)
  | domain (place : Host.ValuePath) (expected : Expectation) (found : Json)
  | reference (kind : NameKind) (name : String)
  /-- No branch of the variant has the tag. -/
  | discriminant (variant : String) (tag : Json) (branches : Nat)
  /-- The chain's own words. -/
  | transport (words : String)
  deriving Repr

namespace CallFault

/-- The text of a variant tag: a name as it is, anything else as JSON. -/
def tagText : Json → String
  | .text name => name
  | tag => tag.compact

/-- The fault in words. -/
def message : CallFault → String
  | .arity callee mismatch =>
    "wrong arguments for action `" ++ callee ++ "`: expected " ++ mismatch.expected ++
      ", got " ++ mismatch.given
  | .domain place expected found =>
    "invalid value for `" ++ place.text ++ "`: expected " ++ expected.text ++
      ", got " ++ found.compact
  | .reference kind name =>
    "no " ++ kind.text ++ " named `" ++ name ++ "` in the contract ABI"
  | .discriminant variant tag branches =>
    "variant `" ++ variant ++ "` has " ++ toString branches ++
      " branch(es), none matches discriminant " ++ tagText tag
  | .transport words => words

end CallFault

end ContractBinding
