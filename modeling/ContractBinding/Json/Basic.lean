import ContractBinding.Decimal.Binary64
import ContractBinding.Keyed

/-!
# JSON values

A value is null, a truth value, a whole number, a binary value, a text, a list or an object.
A whole number and a binary value are different values even where they are equal as numbers.
The entries of an object are kept in key order.
-/

namespace ContractBinding

/-- A JSON value. -/
inductive Json where
  | null
  | bool (value : Bool)
  | int (value : Int)
  | double (value : Decimal.Binary64)
  | text (value : String)
  | array (items : List Json)
  | object (entries : List (String × Json))
  deriving Repr

namespace Json

instance : Inhabited Json := ⟨.null⟩

/-- An object from entries in any order; of several under one key the last one counts. -/
def ofEntries (entries : List (String × Json)) : Json := .object (Keyed.ofList entries)

/-- The value under a key of an object. -/
def get? (key : String) : Json → Option Json
  | .object entries => entries.lookup key
  | _ => none

/-- The value at the end of a path of keys. -/
def getPath? : List String → Json → Option Json
  | [], value => some value
  | key :: path, value => (value.get? key).bind (getPath? path)

def isNull : Json → Bool
  | .null => true
  | _ => false

/-- The content of a text. -/
def text? : Json → Option String
  | .text s => some s
  | _ => none

/-- A whole number that is not negative. -/
def natural? : Json → Option Nat
  | .int n => if 0 ≤ n then some n.toNat else none
  | _ => none

end Json

end ContractBinding
