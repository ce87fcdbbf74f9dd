import ContractBinding.Binding.Interface

/-!
# The text of the generated interface

The text has a header and five sections, which always stand in the same order: row interfaces,
aliases, variants, and within the contract's interface the methods of actions, the methods with
object arguments and the accessors of tables.
-/

namespace ContractBinding.Binding

/-- What the header says. -/
structure Header where
  /-- The module that the types of the host values come from. -/
  runtimeModule : String
  /-- The hash of the document, if it is to be shown. -/
  sourceHash : Option String
  deriving DecidableEq, Repr

/-- The module that is named where no other is given. -/
def defaultRuntimeModule : String := "lamington"

/-- The type of the options at the end of every method. -/
def callOptionsType : String := "\x7b from?: Account, auths?: ActorPermission[] \x7d"

private def optionalMark (optional : Bool) : String := if optional then "?" else ""

/-- The warning, the hash and the imports. -/
def Header.text (h : Header) : String :=
  let rule := "// =====================================================\n"
  rule ++ "// WARNING: GENERATED FILE\n//\n" ++
    "// Any changes you make will be overwritten by abibridge\n" ++ rule ++
    (h.sourceHash.map fun hash => "// Source ABI sha256: " ++ hash ++ "\n").getD "" ++
    "\nimport \x7b Account, Asset, Contract, GetTableRowsOptions, ExtendedAsset, " ++
    "ExtendedSymbol, ActorPermission, TableRowsResult \x7d from '" ++ h.runtimeModule ++
    "';\n\n"

/-- A key with its mark and type. -/
def Property.text (p : Property) : String :=
  p.key ++ optionalMark p.optional ++ ": " ++ p.type.text

/-- A parameter with its mark and type. -/
def Parameter.text (p : Parameter) : String :=
  p.name ++ optionalMark p.optional ++ ": " ++ p.type.text

def RowInterface.text (r : RowInterface) : String :=
  "export interface " ++ r.name ++ (r.parent.map fun p => " extends " ++ p).getD "" ++ " \x7b\n" ++
    String.join (r.properties.map fun p => "\t" ++ p.text ++ ";\n") ++ "\x7d\n\n"

def AliasExport.text (a : AliasExport) : String :=
  "export type " ++ a.name ++ " = " ++ a.target.text ++ ";\n"

def VariantExport.text (v : VariantExport) : String :=
  "export type " ++ v.name ++ " = [number, " ++ " | ".intercalate (v.members.map HostType.text) ++
    "];\n"

def ActionMethod.text (a : ActionMethod) : String :=
  let options := Name.optionsParameter ++ "?: " ++ callOptionsType
  "\t" ++ a.name ++ "(" ++ ", ".intercalate (a.parameters.map Parameter.text ++ [options]) ++
    "): Promise<any>;\n"

def ObjectMethod.text (o : ObjectMethod) : String :=
  let bundle :=
    if o.properties.isEmpty then "\x7b\x7d"
    else "\x7b " ++ ", ".intercalate (o.properties.map Property.text) ++ " \x7d"
  "\t" ++ o.name ++ "(params: " ++ bundle ++ ", " ++ Name.optionsParameter ++ "?: " ++
    callOptionsType ++ "): Promise<any>;\n"

def TableAccessor.text (t : TableAccessor) : String :=
  "\t" ++ t.name ++ "(options?: GetTableRowsOptions): Promise<TableRowsResult<" ++ t.row ++
    ">>;\n"

/-- The text of an interface under a header. -/
def Interface.text (i : Interface) (h : Header) : String :=
  h.text ++
    "// Table row types\n" ++ String.join (i.rows.map RowInterface.text) ++
    "// Added Types\n" ++ String.join (i.aliases.map AliasExport.text) ++ "\n" ++
    "// Variants\n" ++ String.join (i.variants.map VariantExport.text) ++ "\n" ++
    "export interface " ++ i.contract ++ " extends Contract \x7b\n" ++
    "\t// Actions\n" ++ String.join (i.actions.map ActionMethod.text) ++ "\n" ++
    "\t// Actions with object params\n" ++ String.join (i.objects.map ObjectMethod.text) ++
    "\n" ++
    "\t// Tables\n" ++ String.join (i.tables.map TableAccessor.text) ++ "\x7d\n"

end ContractBinding.Binding
