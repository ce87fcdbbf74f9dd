import ContractBinding.Host.Value
import ContractBinding.Json.Record

/-!
# The arguments of a call

An action is called with its arguments in order or with one object of them, and with options
that say who authorises it.
-/

namespace ContractBinding.Call

/-- The arguments of a call. -/
inductive Arguments where
  /-- In field order; a slot may be empty, and slots may be missing at the end. -/
  | positional (slots : List (Option HostValue))
  /-- Under the names of the fields, in key order. -/
  | object (entries : List (String × HostValue))
  deriving Repr

/-- The options of a call. -/
structure Options where
  /-- The account that signs, by its active permission. -/
  signer : Option Account := none
  /-- The permissions to use where no account signs. -/
  authorization : Option (List Permission) := none
  debug : Bool := false
  deriving DecidableEq, Repr

/-- An action as the chain takes it. -/
structure WireAction where
  account : String
  name : String
  authorization : List Permission
  /-- The entries of the data, in key order. -/
  data : List (String × Json)
  deriving Repr

namespace WireAction

/-- The record of an action. -/
def toJson (a : WireAction) : Json :=
  .ofEntries
    [ ("account", .text a.account),
      ("name", .text a.name),
      ("authorization", .array (a.authorization.map Permission.toJson)),
      ("data", .object a.data) ]

end WireAction

/-- A call that is ready to be sent. -/
structure Prepared where
  action : WireAction
  /-- The account that the chain has to be able to sign for. -/
  signer : Option Account
  debug : Bool
  deriving Repr

end ContractBinding.Call
