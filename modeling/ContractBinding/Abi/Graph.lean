import ContractBinding.Type.Expr

/-!
# The resolved graph

A document after every reference has been checked. Entries keep the order of the document, and
names are looked up in an index of the declared types. The lists and the index are separate: a
graph that has been edited still knows the names it was resolved with.
-/

namespace ContractBinding.Abi

/-- A field with its type and the struct that declares it. -/
structure Field where
  name : String
  type : FieldType
  declaredIn : String
  deriving DecidableEq, Repr

/-- A struct; `fields` are those of its ancestors, the farthest first, and then its own. -/
structure Struct where
  name : String
  base : Option String
  ownFields : List Field
  fields : List Field
  deriving DecidableEq, Repr

/-- Another name for a type. -/
structure Alias where
  name : String
  target : TypeExpr
  deriving DecidableEq, Repr

/-- A type that a variant offers. -/
structure Branch where
  /-- What the wire knows the branch by. -/
  index : Nat
  type : TypeExpr
  deriving DecidableEq, Repr

/-- A choice between types. -/
structure Variant where
  name : String
  branches : List Branch
  deriving DecidableEq, Repr

/-- An action with the fields of its arguments. -/
structure Action where
  name : String
  structName : String
  fields : List Field
  ricardianContract : String
  deriving DecidableEq, Repr

/-- A table with the struct of its rows. -/
structure Table where
  name : String
  rowStruct : String
  indexType : String
  keyNames : List String
  keyTypes : List String
  deriving DecidableEq, Repr

/-- What a declared name stands for, by its position among the entries of its kind. -/
inductive Decl where
  | alias (position : Nat)
  | struct (position : Nat)
  | variant (position : Nat)
  deriving DecidableEq, Repr

/-- The declared type names. -/
abbrev Index := List (String × Decl)

/-- A resolved document. -/
structure Graph where
  version : Option String
  aliases : List Alias
  structs : List Struct
  actions : List Action
  tables : List Table
  variants : List Variant
  index : Index
  deriving DecidableEq, Repr

/-- The field of a name. -/
def Struct.field? (s : Struct) (name : String) : Option Field :=
  s.fields.find? fun f => f.name = name

namespace Variant

/-- The branch at a position. -/
def branch? (v : Variant) (position : Nat) : Option Branch := v.branches[position]?

/-- The first branch whose type is written so. -/
def branchNamed? (v : Variant) (typeText : String) : Option Branch :=
  v.branches.find? fun b => b.type.display = typeText

end Variant

namespace Action

/-- The number of leading fields up to the last that is no binary extension: the least number of
positional arguments. -/
def requiredArity (a : Action) : Nat :=
  (a.fields.reverse.dropWhile fun f => f.type.binaryExtension).length

end Action

namespace Graph

/-- What a name stands for. -/
def decl? (g : Graph) (name : String) : Option Decl := g.index.lookup name

/-- Whether a name is declared. -/
def declares (g : Graph) (name : String) : Bool := (g.decl? name).isSome

/-- The struct of a name. -/
def struct? (g : Graph) (name : String) : Option Struct :=
  match g.decl? name with
  | some (.struct position) => g.structs[position]?
  | _ => none

/-- The alias of a name. -/
def alias? (g : Graph) (name : String) : Option Alias :=
  match g.decl? name with
  | some (.alias position) => g.aliases[position]?
  | _ => none

/-- The variant of a name. -/
def variant? (g : Graph) (name : String) : Option Variant :=
  match g.decl? name with
  | some (.variant position) => g.variants[position]?
  | _ => none

/-- The action of a name. -/
def action? (g : Graph) (name : String) : Option Action :=
  g.actions.find? fun a => a.name = name

/-- The table of a name. -/
def table? (g : Graph) (name : String) : Option Table :=
  g.tables.find? fun t => t.name = name

/-- The struct of a table's rows. -/
def tableRow? (g : Graph) (table : String) : Option Struct :=
  (g.table? table).bind fun t => g.struct? t.rowStruct

/-- Follow at most `steps` alias links. -/
def follow (g : Graph) : Nat → TypeExpr → TypeExpr
  | 0, expr => expr
  | steps + 1, .named name =>
    match g.alias? name with
    | some a => g.follow steps a.target
    | none => .named name
  | _ + 1, expr => expr

/-- The type that an expression stands for once no alias is left at its top. Alias links have
no cycle, so one step for every alias and one more is enough. -/
def behind (g : Graph) (expr : TypeExpr) : TypeExpr := g.follow (g.aliases.length + 1) expr

/-- The struct that the type of an action or a table names, through aliases. -/
def structBehind? (g : Graph) (token : String) : Option Struct :=
  match g.behind (.named (Text.trim token)) with
  | .named name => g.struct? name
  | _ => none

end Graph

end ContractBinding.Abi
