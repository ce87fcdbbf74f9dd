import ContractBinding.Abi.Graph
import ContractBinding.Call.Arguments
import ContractBinding.Call.Fault

/-!
# Preparing a call

The arguments of a call become the data of an action. Both ways of giving them follow one rule
for every field: a value is reduced to its wire form along the type of the field, a binary
extension without a value is left out, a field that may be null and has no value is null, and
any other field needs a value.
-/

namespace ContractBinding.Call

mutual

/-- The wire form of a value at a type. A variant has to name a branch that its type has. -/
def reduce (g : Abi.Graph) (expr : TypeExpr) (value : HostValue) : Except CallFault Json :=
  match g.behind expr, value with
  | .array element, .array items => (reduceItems g element items).map .array
  | .named name, .variant position payload =>
    match g.variant? name with
    | none => .ok (HostValue.variant position payload).toWire
    | some v =>
      match v.branch? position with
      | none => .error (.discriminant v.name (.int position) v.branches.length)
      | some b => do return .array [.int position, ← reduce g b.type payload]
  | .named name, .struct entries =>
    match g.struct? name with
    | none => .ok (HostValue.struct entries).toWire
    | some s => (reduceEntries g s entries).map .object
  | _, value => .ok value.toWire

/-- The wire forms of items of one type. -/
def reduceItems (g : Abi.Graph) (element : TypeExpr) :
    List HostValue → Except CallFault (List Json)
  | [] => .ok []
  | item :: rest => do
    let item ← reduce g element item
    let rest ← reduceItems g element rest
    return item :: rest

/-- The entries of a struct with their wire forms; one that is not declared has no type. -/
def reduceEntries (g : Abi.Graph) (s : Abi.Struct) :
    List (String × HostValue) → Except CallFault (List (String × Json))
  | [] => .ok []
  | (key, value) :: rest => do
    let wire ← match s.field? key with
      | none => .ok value.toWire
      | some f => reduce g f.type.expr value
    let rest ← reduceEntries g s rest
    return (key, wire) :: rest

end

/-- The entry of a field in the data, if it gets one. -/
def fieldEntry (g : Abi.Graph) (action : Abi.Action) (missing : String → Mismatch)
    (f : Abi.Field) : Option HostValue → Except CallFault (Option (String × Json))
  | some value => do return some (f.name, ← reduce g f.type.expr value)
  | none =>
    if f.type.binaryExtension then .ok none
    else if f.type.optional then .ok (some (f.name, .null))
    else .error (.arity action.name (missing f.name))

/-- The data of arguments in order; slots that are missing at the end are empty. -/
def positionalData (g : Abi.Graph) (action : Abi.Action) (slots : List (Option HostValue)) :
    Except CallFault (List (String × Json)) :=
  let least := action.requiredArity
  let most := action.fields.length
  if slots.length < least || most < slots.length then
    .error (.arity action.name (.count least most slots.length))
  else do
    let slots := slots ++ List.replicate (most - slots.length) none
    let entries ← (action.fields.zip slots).mapM fun (f, slot) =>
      fieldEntry g action .emptySlot f slot
    return Keyed.ofList entries.reduceOption

/-- The entries of fields in field order, and what is left of the values. A field takes the value
under its name away, so no later field gets it again. -/
def takeFields (g : Abi.Graph) (action : Abi.Action) :
    List Abi.Field → List (String × HostValue) →
      Except CallFault (List (Option (String × Json)) × List (String × HostValue))
  | [], values => .ok ([], values)
  | f :: rest, values => do
    let entry ← fieldEntry g action .missingField f (values.lookup f.name)
    let (entries, left) ← takeFields g action rest (Keyed.erase f.name values)
    return (entry :: entries, left)

/-- The data of an object of arguments; no value may be left over. -/
def objectData (g : Abi.Graph) (action : Abi.Action) (values : List (String × HostValue)) :
    Except CallFault (List (String × Json)) := do
  let (entries, left) ← takeFields g action action.fields values
  match left with
  | [] => return Keyed.ofList entries.reduceOption
  | (key, _) :: _ => .error (.arity action.name (.unknownField action.fields.length key))

/-- The data of a call. -/
def data (g : Abi.Graph) (action : Abi.Action) :
    Arguments → Except CallFault (List (String × Json))
  | .positional slots => positionalData g action slots
  | .object values => objectData g action values

/-- Who authorises a call: the signing account, else the given permissions, else the contract. -/
def authorization (contract : Account) (options : Options) : List Permission :=
  match options.signer, options.authorization with
  | some signer, _ => signer.active
  | none, some permissions => permissions
  | none, none => contract.active

/-- The call of an action of a contract. -/
def prepare (g : Abi.Graph) (contract : Account) (action : Abi.Action) (arguments : Arguments)
    (options : Options) : Except CallFault Prepared := do
  let data ← data g action arguments
  return {
    action := {
      account := contract.name
      name := action.name
      authorization := authorization contract options
      data }
    signer := options.signer
    debug := options.debug }

end ContractBinding.Call
