import ContractBinding.Json.Record
import ContractBinding.Text.Blank

/-!
# Contract documents

A document declares the types, actions and tables of a contract. It is a JSON record; the keys
that it does not know are ignored, and every list may be left out.
-/

namespace ContractBinding.Abi

/-- Another name for a type. -/
structure AliasDecl where
  name : String
  target : String
  deriving DecidableEq, Repr

/-- A field of a struct, with its type token. -/
structure FieldDecl where
  name : String
  token : String
  deriving DecidableEq, Repr

/-- A struct; a blank base stands for no base. -/
structure StructDecl where
  name : String
  base : String
  fields : List FieldDecl
  deriving DecidableEq, Repr

/-- An action; its type names the struct of its arguments. -/
structure ActionDecl where
  name : String
  type : String
  ricardianContract : String
  deriving DecidableEq, Repr

/-- A table; its type names the struct of its rows. -/
structure TableDecl where
  name : String
  type : String
  indexType : String
  keyNames : List String
  keyTypes : List String
  deriving DecidableEq, Repr

/-- A choice between types. -/
structure VariantDecl where
  name : String
  types : List String
  deriving DecidableEq, Repr

/-- A contract document. -/
structure Document where
  version : Option String
  aliases : List AliasDecl
  structs : List StructDecl
  actions : List ActionDecl
  tables : List TableDecl
  variants : List VariantDecl
  deriving DecidableEq, Repr

/-- The base of a struct, if it has one; blanks around it do not count. -/
def StructDecl.base? (s : StructDecl) : Option String :=
  let base := Text.trim s.base
  if base = "" then none else some base

open Json Json.Slot in
/-- Decode an alias. -/
def AliasDecl.ofWritten? (w : Written) : Option AliasDecl := do
  let [name, target] ← w.slots? ["new_type_name", "type"] false | none
  let name ← required Written.text? name
  let target ← required Written.text? target
  some { name, target }

open Json Json.Slot in
/-- Decode a field. -/
def FieldDecl.ofWritten? (w : Written) : Option FieldDecl := do
  let [name, token] ← w.slots? ["name", "type"] false | none
  let name ← required Written.text? name
  let token ← required Written.text? token
  some { name, token }

open Json Json.Slot in
/-- Decode a struct. -/
def StructDecl.ofWritten? (w : Written) : Option StructDecl := do
  let [name, base, fields] ← w.slots? ["name", "base", "fields"] false | none
  let name ← required Written.text? name
  let base ← withDefault "" Written.text? base
  let fields ← withDefault [] (Written.list? FieldDecl.ofWritten?) fields
  some { name, base, fields }

open Json Json.Slot in
/-- Decode an action. -/
def ActionDecl.ofWritten? (w : Written) : Option ActionDecl := do
  let [name, type, contract] ← w.slots? ["name", "type", "ricardian_contract"] false | none
  let name ← required Written.text? name
  let type ← required Written.text? type
  let ricardianContract ← withDefault "" Written.text? contract
  some { name, type, ricardianContract }

open Json Json.Slot in
/-- Decode a table. -/
def TableDecl.ofWritten? (w : Written) : Option TableDecl := do
  let [name, type, indexType, keyNames, keyTypes] ←
    w.slots? ["name", "type", "index_type", "key_names", "key_types"] false | none
  let name ← required Written.text? name
  let type ← required Written.text? type
  let indexType ← withDefault "" Written.text? indexType
  let keyNames ← withDefault [] (Written.list? Written.text?) keyNames
  let keyTypes ← withDefault [] (Written.list? Written.text?) keyTypes
  some { name, type, indexType, keyNames, keyTypes }

open Json Json.Slot in
/-- Decode a variant. -/
def VariantDecl.ofWritten? (w : Written) : Option VariantDecl := do
  let [name, types] ← w.slots? ["name", "types"] false | none
  let name ← required Written.text? name
  let types ← required (Written.list? Written.text?) types
  some { name, types }

namespace Document

open Json Json.Slot in
/-- Decode a document. -/
def ofWritten? (w : Written) : Option Document := do
  let [version, aliases, structs, actions, tables, variants] ←
    w.slots? ["version", "types", "structs", "actions", "tables", "variants"] false | none
  let version ← withDefault none (Written.nullable Written.text?) version
  let aliases ← withDefault [] (Written.list? AliasDecl.ofWritten?) aliases
  let structs ← withDefault [] (Written.list? StructDecl.ofWritten?) structs
  let actions ← withDefault [] (Written.list? ActionDecl.ofWritten?) actions
  let tables ← withDefault [] (Written.list? TableDecl.ofWritten?) tables
  let variants ← withDefault [] (Written.list? VariantDecl.ofWritten?) variants
  some { version, aliases, structs, actions, tables, variants }

end Document

end ContractBinding.Abi
