import ContractBinding.Json.Record
import ContractBinding.Token.Asset

/-!
# Tokens of a contract

An extended amount and an extended symbol also name the contract that issues the token. Both
are records.
-/

namespace ContractBinding.Token

/-- An amount and the contract of its token. -/
structure ExtendedAsset where
  quantity : Asset
  contract : String
  deriving DecidableEq, Repr

/-- A symbol and the contract of its token. -/
structure ExtendedSymbol where
  symbol : Symbol
  contract : String
  deriving DecidableEq, Repr

open Json.Slot in
/-- Decode an extended amount. -/
def ExtendedAsset.ofJson? (value : Json) : Option ExtendedAsset := do
  let [quantity, contract] ← value.slots? ["quantity", "contract"] | none
  let quantity ← required Json.text? quantity
  let quantity ← (Asset.parse quantity).toOption
  let contract ← required Json.text? contract
  some { quantity, contract }

/-- The record of an extended amount. -/
def ExtendedAsset.toJson (a : ExtendedAsset) : Json :=
  .ofEntries [("quantity", .text a.quantity.text), ("contract", .text a.contract)]

open Json.Slot in
/-- Decode an extended symbol. -/
def ExtendedSymbol.ofJson? (value : Json) : Option ExtendedSymbol := do
  let [symbol, contract] ← value.slots? ["sym", "contract"] | none
  let symbol ← required Json.text? symbol
  let symbol ← (Symbol.parse symbol).toOption
  let contract ← required Json.text? contract
  some { symbol, contract }

/-- The record of an extended symbol. -/
def ExtendedSymbol.toJson (s : ExtendedSymbol) : Json :=
  .ofEntries [("sym", .text s.symbol.text), ("contract", .text s.contract)]

end ContractBinding.Token
