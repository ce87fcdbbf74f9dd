import ContractBinding.Host.Value
import ContractBinding.Json.Record

/-!
# Pages of a table

A query answers a page of rows. The chain sends rows as JSON; a row that has been read has host
values, and a page of such rows has a view for callers that know only JSON.
-/

namespace ContractBinding.Table

universe u

/-- A page of rows. -/
structure Page (α : Type u) where
  rows : List α
  /-- Whether rows are left. -/
  more : Bool := false
  /-- Where to go on. -/
  nextKey : Option String := none
  deriving Repr

/-- A row that has been read. -/
structure Row where
  /-- In key order. -/
  fields : List (String × HostValue)
  /-- The account that pays for the row, if it came with one. -/
  payer : Option String := none
  deriving Repr

open Json.Slot in
/-- Decode a page. -/
def Page.ofJson? (value : Json) : Option (Page Json) := do
  let [rows, more, nextKey] ← value.slots? ["rows", "more", "next_key"] | none
  let rows ← required (Json.list? some) rows
  let more ← withDefault false Json.bool? more
  let nextKey ← withDefault none (Json.nullable Json.text?) nextKey
  some { rows, more, nextKey }

/-- The JSON view of a row. -/
def Row.toWire (r : Row) : Json :=
  let data := (HostValue.struct r.fields).toWire
  match r.payer with
  | none => data
  | some payer => .ofEntries [("data", data), ("payer", .text payer)]

/-- The JSON view of a page. -/
def Page.toWire (p : Page Row) : Json :=
  .ofEntries <|
    [("rows", .array (p.rows.map Row.toWire)), ("more", .bool p.more)] ++
    (p.nextKey.map fun key => ("next_key", Json.text key)).toList

end ContractBinding.Table
