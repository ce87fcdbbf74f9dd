import ContractBinding.Abi.Graph
import ContractBinding.Name.Casing

/-!
# Types of the generated code

Every type expression has a type in the generated code: a built-in type the type of its host
value, a declared type the name that it is exported under. A struct that is nothing but a
`key` and a `value` is written in place as a pair.
-/

namespace ContractBinding.Binding

/-- A type of the generated code. -/
inductive HostType where
  | builtin (p : Primitive)
  | array (element : HostType)
  | pair (key value : HostType)
  | exported (name : String)
  deriving DecidableEq, Repr

/-- The text of a type. -/
def HostType.text : HostType → String
  | .builtin p => p.hostType
  | .array element => "Array<" ++ element.text ++ ">"
  | .pair key value => "\x7b key: " ++ key.text ++ "; value: " ++ value.text ++ " \x7d"
  | .exported name => name

/-- The name of the contract, and the structs that are written in place with the types of their
`key` and `value`; of several under one name the first counts. -/
structure Mapping where
  contract : String
  pairs : List (String × TypeExpr × TypeExpr)
  deriving DecidableEq, Repr

namespace Mapping

/-- No struct is written in place. -/
def plain (contract : String) : Mapping := ⟨contract, []⟩

/-- Write a struct in place, whatever was said of that name before. -/
def withPair (m : Mapping) (pair : String × TypeExpr × TypeExpr) : Mapping :=
  { m with pairs := pair :: m.pairs }

/-- Whether a struct is written in place. -/
def isPair (m : Mapping) (name : String) : Bool := (m.pairs.lookup name).isSome

/-- The name that a declared type is exported under. -/
def exportedName (m : Mapping) (name : String) : String := Name.typeName m.contract name

/-- Map an expression, given the types of the declared names. -/
def mapWith (declared : String → HostType) : TypeExpr → HostType
  | .primitive p => .builtin p
  | .array element => .array (mapWith declared element)
  | .named name => declared name

/-- The type of a declared name; pairs are opened inside of pairs to the given depth. -/
def mapNamed (m : Mapping) : Nat → String → HostType
  | 0, name => .exported (m.exportedName name)
  | depth + 1, name =>
    match m.pairs.lookup name with
    | some (key, value) =>
      .pair (mapWith (m.mapNamed depth) key) (mapWith (m.mapNamed depth) value)
    | none => .exported (m.exportedName name)

/-- The type of an expression. Where no pair contains itself, no chain of pairs is longer than
the list of pairs. -/
def map (m : Mapping) (expr : TypeExpr) : HostType :=
  mapWith (m.mapNamed m.pairs.length) expr

/-- A struct that could be written in place: its name starts with `pair_`, it has no base, and
its fields are `key` and `value`. -/
def candidate? (s : Abi.Struct) : Option (String × TypeExpr × TypeExpr) :=
  match s.base, s.fields with
  | none, [key, value] =>
    if "pair_".toList.isPrefixOf s.name.toList ∧ key.name = "key" ∧ value.name = "value" then
      some (s.name, key.type.expr, value.type.expr)
    else none
  | _, _ => none

/-- Whether an expression refers to one of the candidates, through arrays too. -/
def refersTo (candidates : List (String × TypeExpr × TypeExpr)) (expr : TypeExpr) : Bool :=
  expr.namedRef?.any fun name => candidates.any fun c => c.1 = name

/-- The structs of a graph that are written in place: the candidates whose members refer to no
candidate. -/
def pairsOf (structs : List Abi.Struct) : List (String × TypeExpr × TypeExpr) :=
  let candidates := structs.filterMap candidate?
  candidates.filter fun (_, key, value) =>
    !refersTo candidates key && !refersTo candidates value

/-- The mapping of a graph; of several structs under one name the last counts. -/
def ofGraph (g : Abi.Graph) (contract : String) : Mapping :=
  ⟨contract, (pairsOf g.structs).reverse⟩

end Mapping

end ContractBinding.Binding
