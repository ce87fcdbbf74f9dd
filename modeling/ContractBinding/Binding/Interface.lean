import ContractBinding.Binding.Mapping
import ContractBinding.Name.Identifier

/-!
# The generated interface

The generated code of a contract exports an interface for every struct, a type for every alias
and every variant, and the interface of the contract itself, whose members are the methods of
its actions and the accessors of its tables. Here it is a structure; its text comes later.
-/

namespace ContractBinding.Binding

open Abi

/-- A type that may be joined with null. -/
structure MemberType where
  type : HostType
  nullable : Bool
  deriving DecidableEq, Repr

/-- A key of an interface or of an object of arguments. -/
structure Property where
  key : String
  /-- Whether the key may be left out. -/
  optional : Bool
  type : MemberType
  deriving DecidableEq, Repr

/-- A positional parameter. -/
structure Parameter where
  name : String
  /-- Whether the argument may be left out. -/
  optional : Bool
  type : MemberType
  deriving DecidableEq, Repr

/-- The interface of a struct, with the interface that it extends. -/
structure RowInterface where
  name : String
  parent : Option String
  properties : List Property
  deriving DecidableEq, Repr

/-- The type of an alias. -/
structure AliasExport where
  name : String
  target : HostType
  deriving DecidableEq, Repr

/-- The type of a variant: the position of a branch and a value of one of the types. -/
structure VariantExport where
  name : String
  members : List HostType
  deriving DecidableEq, Repr

/-- A method that takes the arguments of an action one by one. -/
structure ActionMethod where
  name : String
  parameters : List Parameter
  deriving DecidableEq, Repr

/-- A method that takes the arguments of an action as one object. -/
structure ObjectMethod where
  name : String
  properties : List Property
  deriving DecidableEq, Repr

/-- A method that reads the rows of a table. -/
structure TableAccessor where
  name : String
  row : String
  deriving DecidableEq, Repr

/-- The generated interface of a contract. -/
structure Interface where
  contract : String
  rows : List RowInterface
  aliases : List AliasExport
  variants : List VariantExport
  actions : List ActionMethod
  objects : List ObjectMethod
  tables : List TableAccessor
  deriving DecidableEq, Repr

namespace MemberType

/-- The type of a field. -/
def ofField (m : Mapping) (f : Field) : MemberType := ⟨m.map f.type.expr, f.type.optional⟩

def text (t : MemberType) : String := t.type.text ++ if t.nullable then " | null" else ""

end MemberType

/-- The key of a field. Extensions may be missing from a row and optional fields may be left out
of a call, so both may be left out. -/
def Property.ofField (m : Mapping) (f : Field) : Property where
  key := Name.propertyKey f.name
  optional := f.type.binaryExtension || f.type.optional
  type := .ofField m f

/-- The parameters of fields, in field order; only an extension may be left out. -/
def Parameter.ofFields (m : Mapping) (fields : List Field) : List Parameter :=
  List.zipWith (fun f name => { name, optional := f.type.binaryExtension, type := .ofField m f })
    fields (Name.parameterNames (fields.map Field.name))

/-- The types whose texts have not been there before, in order. -/
def distinctTexts (types : List HostType) : List HostType :=
  types.foldl (fun kept type =>
    if kept.any fun other => other.text = type.text then kept else kept ++ [type]) []

namespace Interface

/-- The interface of a struct: its own fields, since the rest is inherited. -/
def rowOf (m : Mapping) (s : Struct) : RowInterface where
  name := m.exportedName s.name
  parent := s.base.map m.exportedName
  properties := s.ownFields.map (Property.ofField m)

def aliasOf (m : Mapping) (a : Alias) : AliasExport := ⟨m.exportedName a.name, m.map a.target⟩

/-- The type of a variant; branches of one text are joined. -/
def variantOf (m : Mapping) (v : Variant) : VariantExport :=
  ⟨m.exportedName v.name, distinctTexts (v.branches.map fun b => m.map b.type)⟩

def actionOf (m : Mapping) (a : Action) : ActionMethod := ⟨a.name, Parameter.ofFields m a.fields⟩

def objectOf (m : Mapping) (a : Action) : ObjectMethod :=
  ⟨Name.objectMethod a.name, a.fields.map (Property.ofField m)⟩

def tableOf (m : Mapping) (t : Table) : TableAccessor :=
  ⟨Name.tableAccessor t.name, m.exportedName t.rowStruct⟩

/-- The interface of a graph under a contract name. -/
def ofGraph (g : Graph) (contract : String) : Interface :=
  let m := Mapping.ofGraph g contract
  { contract
    rows := g.structs.map (rowOf m)
    aliases := g.aliases.map (aliasOf m)
    variants := g.variants.map (variantOf m)
    actions := g.actions.map (actionOf m)
    objects := g.actions.map (objectOf m)
    tables := g.tables.map (tableOf m) }

/-- The exported names in the order of the text. -/
def exports (i : Interface) : List String :=
  i.rows.map RowInterface.name ++ i.aliases.map AliasExport.name ++
    i.variants.map VariantExport.name ++ [i.contract]

/-- The member names of the contract's own interface in the order of the text. -/
def members (i : Interface) : List String :=
  i.actions.map ActionMethod.name ++ i.objects.map ObjectMethod.name ++
    i.tables.map TableAccessor.name

end Interface

end ContractBinding.Binding
