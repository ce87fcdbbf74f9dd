import ContractBinding.Abi.Document
import ContractBinding.Type.Expr
import Mathlib.Logic.Relation

/-!
# Well-formed documents

What a document has to satisfy, said of the document alone: of its names, its tokens, the links
between its aliases and the links from its structs to their bases.
-/

namespace ContractBinding.Abi

/-- A token that bears neither of the marks of a field. -/
def Unmarked (token : String) : Prop := '$' ∉ token.toList ∧ '?' ∉ token.toList

namespace Document

/-- The names of aliases, structs and variants, which are one name space. -/
def typeNames (doc : Document) : List String :=
  doc.aliases.map AliasDecl.name ++ doc.structs.map StructDecl.name ++
    doc.variants.map VariantDecl.name

/-- A token is a type whose name below all array levels is built in or declared. -/
def Denotes (doc : Document) (token : String) : Prop :=
  ∃ type, FieldType.parse token = .ok type ∧
    ∀ name, type.expr.namedRef? = some name → name ∈ doc.typeNames

/-- The alias `a` stands for the name `b`, without arrays. -/
def AliasLink (doc : Document) (a b : String) : Prop :=
  ∃ decl ∈ doc.aliases, decl.name = a ∧
    ∃ type, FieldType.parse decl.target = .ok type ∧ type.expr = .named b

/-- The struct `a` has the base `b`. -/
def BaseLink (doc : Document) (a b : String) : Prop :=
  ∃ decl ∈ doc.structs, decl.name = a ∧ decl.base? = some b

/-- A struct followed by its ancestors, the nearest first. -/
inductive Lineage (doc : Document) : StructDecl → List StructDecl → Prop where
  | root {s : StructDecl} (h : s.base? = none) : Lineage doc s [s]
  | child {s parent : StructDecl} {above : List StructDecl} (h : s.base? = some parent.name)
      (hp : parent ∈ doc.structs) (hl : Lineage doc parent above) : Lineage doc s (s :: above)

/-- A token without the blanks around it is a name that alias links lead from to a struct. -/
def LeadsToStruct (doc : Document) (token : String) : Prop :=
  ∃ s ∈ doc.structs, Relation.ReflTransGen doc.AliasLink (Text.trim token) s.name

/-- A document without a defect. -/
structure WellFormed (doc : Document) : Prop where
  typeNames_present : ∀ name ∈ doc.typeNames, Text.isBlankText name = false
  typeNames_distinct : doc.typeNames.Nodup
  actionNames_present : ∀ a ∈ doc.actions, Text.isBlankText a.name = false
  actionNames_distinct : (doc.actions.map ActionDecl.name).Nodup
  tableNames_present : ∀ t ∈ doc.tables, Text.isBlankText t.name = false
  tableNames_distinct : (doc.tables.map TableDecl.name).Nodup
  aliases_denote : ∀ a ∈ doc.aliases, doc.Denotes a.target ∧ Unmarked a.target
  branches_denote : ∀ v ∈ doc.variants, ∀ token ∈ v.types, doc.Denotes token ∧ Unmarked token
  fields_denote : ∀ s ∈ doc.structs, ∀ f ∈ s.fields, doc.Denotes f.token
  /-- No walk along alias links comes back to an alias it has passed. -/
  aliases_acyclic : ∀ name, ¬ Relation.TransGen doc.AliasLink name name
  variants_inhabited : ∀ v ∈ doc.variants, v.types ≠ []
  bases_declared : ∀ s ∈ doc.structs, ∀ base, s.base? = some base →
    base ∈ doc.structs.map StructDecl.name
  /-- No struct is its own ancestor. -/
  bases_acyclic : ∀ name, ¬ Relation.TransGen doc.BaseLink name name
  fields_distinct : ∀ s ∈ doc.structs, ∀ line, doc.Lineage s line →
    ((line.flatMap StructDecl.fields).map FieldDecl.name).Nodup
  actions_typed : ∀ a ∈ doc.actions, doc.LeadsToStruct a.type
  tables_typed : ∀ t ∈ doc.tables, doc.LeadsToStruct t.type

end Document

end ContractBinding.Abi
