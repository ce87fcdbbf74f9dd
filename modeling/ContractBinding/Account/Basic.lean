import ContractBinding.Hash.Sha256
import ContractBinding.Json.Record

/-!
# Accounts and permissions

An account of the chain is known by its name and may carry a public key. An action is authorised
by permissions of accounts.
-/

namespace ContractBinding

/-- An account that a caller can act as. -/
structure Account where
  name : String
  publicKey : Option String := none
  deriving DecidableEq, Repr

/-- A permission of an account. -/
structure Permission where
  actor : String
  permission : String
  deriving DecidableEq, Repr

open Json.Slot in
/-- Decode a permission. -/
def Permission.ofJson? (value : Json) : Option Permission := do
  let [actor, permission] ← value.slots? ["actor", "permission"] | none
  let actor ← required Json.text? actor
  let permission ← required Json.text? permission
  some { actor, permission }

/-- The record of a permission. -/
def Permission.toJson (p : Permission) : Json :=
  .ofEntries [("actor", .text p.actor), ("permission", .text p.permission)]

namespace Account

/-- The authorisation of an account by its active permission. -/
def active (a : Account) : List Permission := [⟨a.name, "active"⟩]

/-- The authorisation of an account by its owner permission. -/
def owner (a : Account) : List Permission := [⟨a.name, "owner"⟩]

/-- A hexadecimal digit as a character of an account name; zero and the digits from six on have
no place in one. -/
def nameDigit (c : Char) : Char :=
  if c = '0' then '1'
  else if c = '6' then '2'
  else if c = '7' then '3'
  else if c = '8' then '4'
  else if c = '9' then '5'
  else c

/-- The name of an account that is made for a public key: `l` and eleven digits of its hash. -/
def nameOfKey (publicKey : String) : String :=
  String.ofList ('l' :: ((Hash.Sha256.hexOfText publicKey).toList.take 11).map nameDigit)

/-- The account that is made for a public key. -/
def ofPublicKey (publicKey : String) : Account := ⟨nameOfKey publicKey, some publicKey⟩

open Json.Slot in
/-- Decode an account. -/
def ofJson? (value : Json) : Option Account := do
  let [name, publicKey] ← value.slots? ["name", "public_key"] | none
  let name ← required Json.text? name
  let publicKey ← withDefault none (Json.nullable Json.text?) publicKey
  some { name, publicKey }

/-- The record of an account. -/
def toJson (a : Account) : Json :=
  .ofEntries <|
    [("name", .text a.name)] ++
    (a.publicKey.map fun key => ("public_key", Json.text key)).toList

end Account

end ContractBinding
