import ContractBinding.Json.Record

/-!
# Table queries

The options of a table query, and the request that they make of the chain.
-/

namespace ContractBinding.Table

/-- The shape of the rows that come back. -/
inductive Layout where
  /-- A row is the object of its fields. -/
  | plain
  /-- A row is an object with the fields under `data` and the account that pays for it. -/
  | withPayer
  deriving DecidableEq, Repr

/-- The options of a table query; one that is none is left to the chain. -/
structure Query where
  /-- The contract itself, if there is none. -/
  scope : Option String := none
  tableKey : Option String := none
  lowerBound : Option Json := none
  upperBound : Option Json := none
  indexPosition : Option Json := none
  keyType : Option String := none
  limit : Option Nat := none
  reverse : Option Bool := none
  showPayer : Option Bool := none
  deriving Repr

/-- A request for rows of a table. -/
structure Request where
  code : String
  table : String
  query : Query
  deriving Repr

namespace Query

/-- A row limit has 32 bits. -/
def limit? (value : Json) : Option Nat := value.natural?.filter (· < UInt32.size)

open Json.Slot in
/-- Decode the options of a query; null is none. -/
def ofJson? (value : Json) : Option Query := do
  let [scope, tableKey, lowerBound, upperBound, indexPosition, keyType, limit, reverse, showPayer]
    ← value.slots? ["scope", "tableKey", "lowerBound", "upperBound", "indexPosition", "keyType",
        "limit", "reverse", "showPayer"] | none
  let scope ← withDefault none (Json.nullable Json.text?) scope
  let tableKey ← withDefault none (Json.nullable Json.text?) tableKey
  let lowerBound ← withDefault none (Json.nullable some) lowerBound
  let upperBound ← withDefault none (Json.nullable some) upperBound
  let indexPosition ← withDefault none (Json.nullable some) indexPosition
  let keyType ← withDefault none (Json.nullable Json.text?) keyType
  let limit ← withDefault none (Json.nullable limit?) limit
  let reverse ← withDefault none (Json.nullable Json.bool?) reverse
  let showPayer ← withDefault none (Json.nullable Json.bool?) showPayer
  some {
    scope, tableKey, lowerBound, upperBound, indexPosition, keyType, limit, reverse, showPayer }

/-- Rows come with their payer when the query asks for it. -/
def layout (q : Query) : Layout := if q.showPayer = some true then .withPayer else .plain

end Query

namespace Request

/-- The record of a request; options that are none are not written. -/
def toJson (r : Request) : Json :=
  let q := r.query
  .ofEntries <|
    [ ("code", .text r.code),
      ("scope", .text (q.scope.getD r.code)),
      ("table", .text r.table),
      ("json", .bool true) ] ++
    List.filterMap (fun (key, value) => value.map (key, ·))
      [ ("table_key", q.tableKey.map .text),
        ("lower_bound", q.lowerBound),
        ("upper_bound", q.upperBound),
        ("index_position", q.indexPosition),
        ("key_type", q.keyType.map .text),
        ("limit", q.limit.map fun n => .int n),
        ("reverse", q.reverse.map .bool),
        ("show_payer", q.showPayer.map .bool) ]

end Request

end ContractBinding.Table
