import ContractBinding.Abi.Graph
import ContractBinding.Call.Fault
import ContractBinding.Table.Page
import ContractBinding.Table.Query

/-!
# Reading table rows

A row of the chain is JSON. It is read along the type of its table: truth values, moments and
amounts become host values, a variant gets the position of its branch, and what holds none of
these is kept as it is. A value that its type does not have is a fault at its place, and the
page is refused.
-/

namespace ContractBinding.Table

open Host (ValuePath)

/-- Search a type for a richer value, by way of aliases, array elements and the fields of structs.
The position of a branch counts as one, so every variant holds one. The names that the search has
come to are its state, and none is searched twice. It goes down a number of steps at most. -/
def search (g : Abi.Graph) : Nat → TypeExpr → StateM (List String) Bool
  | 0, _ => return false
  | steps + 1, expr =>
    match g.behind expr with
    | .primitive p => return p.reinterpretation?.isSome
    | .array element => search g steps element
    | .named name => do
      if (← get).contains name then return false
      modify (name :: ·)
      match g.struct? name with
      | some s => s.fields.anyM fun f => search g steps f.type.expr
      | none => return (g.variant? name).isSome

/-- The array levels of the types of all aliases and fields. -/
def arrayLevels (g : Abi.Graph) : Nat :=
  let ofAliases := g.aliases.map fun a => a.target.depth
  let ofFields := g.structs.flatMap fun s => s.fields.map fun f => f.type.expr.depth
  (ofAliases ++ ofFields).foldr (· + ·) 0

/-- How far down a search may go: no way from one name to the next takes more steps than there are
array levels on it, and no search comes to more names than there are. -/
def searchDepth (g : Abi.Graph) (expr : TypeExpr) : Nat :=
  expr.depth + (g.index.length + 1) * ((g.aliases.length + 1) * (arrayLevels g + 1))

/-- Reads values along the types of a graph. -/
structure Coercer where
  graph : Abi.Graph

/-- How values of a type are read. -/
inductive Reading where
  | asIs
  | scalar (kind : Reinterpretation)
  | items (element : TypeExpr)
  | fields (s : Abi.Struct)
  | branches (v : Abi.Variant)
  deriving DecidableEq, Repr

/-- Read a value of a built-in type. -/
def readScalar (kind : Reinterpretation) (place : ValuePath) (value : Json) :
    Except CallFault HostValue :=
  match kind, value with
  | .bool, .bool b => .ok (.bool b)
  | .bool, .int 0 => .ok (.bool false)
  | .bool, .int 1 => .ok (.bool true)
  | .bool, _ => .error (.domain place .flag value)
  | .timePointSec, value => match value.text?.bind Time.Moment.parse? with
    | some moment => .ok (.moment moment)
    | none => .error (.domain place .moment value)
  | .asset, value => match value.text?.bind fun s => (Token.Asset.parse s).toOption with
    | some asset => .ok (.asset asset)
    | none => .error (.domain place .asset value)

/-- The branch that a tag selects: by the text of its type or by its position. -/
def tagged? (v : Abi.Variant) (tag : Json) : Option Abi.Branch :=
  match tag with
  | .text name => v.branchNamed? name
  | _ => tag.natural?.bind v.branch?

namespace Coercer

/-- The coercer of a graph. -/
def ofGraph (graph : Abi.Graph) : Coercer := { graph }

/-- Whether values of a type hold a richer value. -/
def isRich (c : Coercer) (expr : TypeExpr) : Bool :=
  ((search c.graph (searchDepth c.graph expr) expr).run []).run.1

/-- How values of a type are read. -/
def reading (c : Coercer) (expr : TypeExpr) : Reading :=
  if !c.isRich expr then .asIs
  else match c.graph.behind expr with
    | .primitive p => match p.reinterpretation? with
      | some kind => .scalar kind
      | none => .asIs
    | .array element => .items element
    | .named name => match c.graph.struct? name with
      | some s => .fields s
      | none => match c.graph.variant? name with
        | some v => .branches v
        | none => .asIs

/-- A declared field without a value is left out if it is an extension or may be null, or if its
type is kept as it is. -/
def checkField (c : Coercer) (place : ValuePath) (read : List (String × Except CallFault HostValue))
    (f : Abi.Field) : Except CallFault Unit :=
  match read.lookup f.name with
  | some result => result.map fun _ => ()
  | none =>
    if f.type.binaryExtension || f.type.optional || !c.isRich f.type.expr then .ok ()
    else .error (.domain (place.push (.field f.name)) .present .null)

/-- The entries of an object once each of them has been read. The first fault in the order of
the declared fields is reported. -/
def collect (c : Coercer) (place : ValuePath) (s : Abi.Struct)
    (read : List (String × Except CallFault HostValue)) :
    Except CallFault (List (String × HostValue)) := do
  s.fields.forM (c.checkField place read)
  read.mapM fun (key, result) => result.map (key, ·)

mutual

/-- Read a value along its type. -/
def coerce (c : Coercer) (place : ValuePath) (expr : TypeExpr) (value : Json) :
    Except CallFault HostValue :=
  match c.reading expr, value with
  | .asIs, value => .ok (.wire value)
  | .scalar kind, value => readScalar kind place value
  | .items element, .array items => (coerceItems c place element 0 items).map .array
  | .items _, value => .error (.domain place .list value)
  | .fields s, .object entries =>
    (c.collect place s (coerceEntries c place s entries)).map .struct
  | .fields _, value => .error (.domain place .object value)
  | .branches v, .array [tag, payload] =>
    match tagged? v tag with
    | none => .error (.discriminant v.name tag v.branches.length)
    | some b =>
      (coerce c (place.push (.branch b.index)) b.type payload).map (.variant b.index)
  | .branches _, value => .error (.domain place .pair value)

/-- Read items of one type, the first of them at a position. -/
def coerceItems (c : Coercer) (place : ValuePath) (element : TypeExpr) (position : Nat) :
    List Json → Except CallFault (List HostValue)
  | [] => .ok []
  | item :: rest => do
    let item ← coerce c (place.push (.item position)) element item
    let rest ← coerceItems c place element (position + 1) rest
    return item :: rest

/-- Read the entries of an object, each for itself. One that the struct does not declare is kept
as it is, and so is null where it may stand. -/
def coerceEntries (c : Coercer) (place : ValuePath) (s : Abi.Struct) :
    List (String × Json) → List (String × Except CallFault HostValue)
  | [] => []
  | (key, value) :: rest =>
    let result := match s.field? key with
      | none => .ok (.wire value)
      | some f =>
        if f.type.optional && value.isNull then .ok (.wire value)
        else coerce c (place.push (.field key)) f.type.expr value
    (key, result) :: coerceEntries c place s rest

end

/-- Read an object along a struct. -/
def coerceStruct (c : Coercer) (place : ValuePath) (s : Abi.Struct) :
    Json → Except CallFault (List (String × HostValue))
  | .object entries => c.collect place s (coerceEntries c place s entries)
  | value => .error (.domain place .object value)

/-- Read a row in its layout. -/
def coerceRow (c : Coercer) (s : Abi.Struct) (layout : Layout) (row : Json) :
    Except CallFault Row :=
  match layout with
  | .plain => do return { fields := ← c.coerceStruct ⟨s.name, []⟩ s row }
  | .withPayer =>
    match row.get? "data" with
    | none => .error (.domain ⟨s.name, []⟩ .dataMember row)
    | some data => do
      return {
        fields := ← c.coerceStruct ⟨s.name, []⟩ s data
        payer := (row.get? "payer").bind Json.text? }

end Coercer

/-- Read the rows of a page; the first fault refuses the page. -/
def coercePage (g : Abi.Graph) (s : Abi.Struct) (layout : Layout) (page : Page Json) :
    Except CallFault (Page Row) := do
  let c := Coercer.ofGraph g
  return { page with rows := ← page.rows.mapM (c.coerceRow s layout) }

end ContractBinding.Table
