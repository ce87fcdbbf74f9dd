import ContractBinding.Abi.Document
import ContractBinding.Abi.Graph
import ContractBinding.Abi.Problem
import ContractBinding.Abi.Visited

/-!
# Resolving a document

A document resolves to a graph when its names are present and unambiguous, every type token
names a type, alias links and base links have no cycle, no struct has two fields of one name, and
actions and tables name structs. The first problem found is reported; the checks go through
names, aliases, variants, structs, actions and tables in this order, each in document order.
-/

namespace ContractBinding.Abi

/-- The kind of a declared type. -/
def Decl.kind : Decl → EntryKind
  | .alias _ => .alias
  | .struct _ => .struct
  | .variant _ => .variant

/-- The declared type names in document order: aliases, structs, variants. -/
def Document.declarations (doc : Document) : Index :=
  doc.aliases.mapIdx (fun i a => (a.name, Decl.alias i)) ++
    doc.structs.mapIdx (fun i s => (s.name, Decl.struct i)) ++
    doc.variants.mapIdx (fun i v => (v.name, Decl.variant i))

/-- A declared type has a name that no earlier one has. -/
def checkDeclarations (earlier : Index) : Index → Except Problem Unit
  | [] => .ok ()
  | (name, decl) :: rest =>
    if Text.isBlankText name then .error (.emptyName decl.kind)
    else match earlier.lookup name with
      | some other => .error (.duplicateType decl.kind name other.kind)
      | none => checkDeclarations (earlier ++ [(name, decl)]) rest

/-- An action or a table has a name that no earlier one has. -/
def checkUnique (kind : EntryKind) (earlier : List String) : List String → Except Problem Unit
  | [] => .ok ()
  | name :: rest =>
    if Text.isBlankText name then .error (.emptyName kind)
    else if earlier.contains name then .error (.duplicateEntry kind name)
    else checkUnique kind (name :: earlier) rest

/-- Read a type token whose declared name, if it has one, is in the index. -/
def resolveToken (index : Index) (site : Site) (token : String) : Except Problem FieldType := do
  let type ← (FieldType.parse token).mapError (.malformedType site)
  match type.expr.namedRef? with
  | some name =>
    if (index.lookup name).isSome then .ok type else .error (.unknownType site name)
  | none => .ok type

/-- Read a type token that bears no mark of a field. -/
def resolvePlain (index : Index) (site : Site) (token : String) : Except Problem TypeExpr := do
  let type ← resolveToken index site token
  if type.binaryExtension || type.optional then .error (.markedType site token)
  else .ok type.expr

def resolveAlias (index : Index) (a : AliasDecl) : Except Problem Alias := do
  let target ← resolvePlain index (.entry .alias a.name) a.target
  return { name := a.name, target }

/-- Follow the alias links of a type, and report the first alias that has been visited before. -/
def revisited? (aliases : List Alias) (visited : List String) : TypeExpr → Option String
  | .named next =>
    match _h : aliases.find? fun a => a.name = next with
    | none => none
    | some a =>
      if _hv : next ∈ visited then some next
      else revisited? aliases (next :: visited) a.target
  | _ => none
termination_by unvisited (aliases.map Alias.name) visited
decreasing_by
  have hn : a.name = next := by simpa using List.find?_some _h
  exact unvisited_cons_lt (List.mem_map.2 ⟨a, List.mem_of_find?_eq_some _h, hn⟩) _hv

/-- No chain of alias links returns to an alias that it has passed. -/
def checkAliasCycles (aliases : List Alias) : Except Problem Unit :=
  aliases.forM fun a =>
    match revisited? aliases [a.name] a.target with
    | some next => .error (.aliasCycle a.name next)
    | none => .ok ()

/-- A branch is numbered by its position among the types. -/
def resolveBranch (index : Index) (variant : String) (entry : String × Nat) :
    Except Problem Branch := do
  let type ← resolvePlain index (.entry .variant variant) entry.1
  return { index := entry.2, type }

def resolveVariant (index : Index) (v : VariantDecl) : Except Problem Variant :=
  if v.types.isEmpty then .error (.emptyVariant v.name)
  else do
    let branches ← v.types.zipIdx.mapM (resolveBranch index v.name)
    return { name := v.name, branches }

def resolveField (index : Index) (struct : String) (f : FieldDecl) : Except Problem Field := do
  let type ← resolveToken index (.structField struct f.name) f.token
  return { name := f.name, type, declaredIn := struct }

/-- A struct before its base is looked at. -/
structure OwnStruct where
  name : String
  base : Option String
  fields : List Field
  deriving DecidableEq, Repr

def resolveOwn (index : Index) (s : StructDecl) : Except Problem OwnStruct := do
  let fields ← s.fields.mapM (resolveField index s.name)
  return { name := s.name, base := s.base?, fields }

/-- The ancestors of a struct, the nearest first. The positions of the struct that the walk began
at and of all ancestors so far are `visited`. -/
def ancestors (index : Index) (own : List OwnStruct) (start : String) (visited : List Nat)
    (s : OwnStruct) : Except Problem (List OwnStruct) :=
  match s.base with
  | none => .ok []
  | some base =>
    match index.lookup base with
    | some (.struct position) =>
      if _hv : position ∈ visited then .error (.baseCycle start base)
      else match _h : own[position]? with
        | none => .error (.missingBase s.name base)
        | some parent => do
          let farther ← ancestors index own start (position :: visited) parent
          return parent :: farther
    | _ => .error (.missingBase s.name base)
termination_by unvisited (List.range own.length) visited
decreasing_by
  obtain ⟨hp, -⟩ := List.getElem?_eq_some_iff.1 _h
  exact unvisited_cons_lt (List.mem_range.2 hp) _hv

/-- Add fields to those that a struct has so far; no two have one name. -/
def mergeFields (struct : String) (merged : List Field) : List Field → Except Problem (List Field)
  | [] => .ok merged
  | f :: rest =>
    match merged.find? fun earlier => earlier.name = f.name with
    | some earlier =>
      .error (.duplicateField struct f.name f.declaredIn earlier.declaredIn)
    | none => mergeFields struct (merged ++ [f]) rest

/-- A struct with the fields of its ancestors, the farthest first. -/
def resolveStruct (index : Index) (own : List OwnStruct) (position : Nat) (s : OwnStruct) :
    Except Problem Struct := do
  let above ← ancestors index own s.name [position] s
  let fields ← mergeFields s.name [] ((s :: above).reverse.flatMap OwnStruct.fields)
  return { name := s.name, base := s.base, ownFields := s.fields, fields }

def resolveStructs (index : Index) (structs : List StructDecl) :
    Except Problem (List Struct) := do
  let own ← structs.mapM (resolveOwn index)
  own.zipIdx.mapM fun (s, position) => resolveStruct index own position s

def resolveAction (g : Graph) (a : ActionDecl) : Except Problem Action :=
  match g.structBehind? a.type with
  | none => .error (.actionType a.name a.type)
  | some s => .ok {
      name := a.name
      structName := s.name
      fields := s.fields
      ricardianContract := a.ricardianContract }

def resolveTable (g : Graph) (t : TableDecl) : Except Problem Table :=
  match g.structBehind? t.type with
  | none => .error (.rowType t.name t.type)
  | some s => .ok {
      name := t.name
      rowStruct := s.name
      indexType := t.indexType
      keyNames := t.keyNames
      keyTypes := t.keyTypes }

/-- The graph of a document, or its first problem. -/
def resolve (doc : Document) : Except Problem Graph := do
  let index := doc.declarations
  checkDeclarations [] index
  checkUnique .action [] (doc.actions.map ActionDecl.name)
  checkUnique .table [] (doc.tables.map TableDecl.name)
  let aliases ← doc.aliases.mapM (resolveAlias index)
  checkAliasCycles aliases
  let variants ← doc.variants.mapM (resolveVariant index)
  let structs ← resolveStructs index doc.structs
  let types : Graph :=
    { version := doc.version, aliases, structs, actions := [], tables := [], variants, index }
  let actions ← doc.actions.mapM (resolveAction types)
  let tables ← doc.tables.mapM (resolveTable types)
  return { types with actions, tables }

/-- The document of a text. -/
def parseDocument (s : String) : Except Problem Document :=
  (Json.Written.decodeText Document.ofWritten? s).mapError .unreadable

/-- The document of the bytes of a file. -/
def parseBytes (bytes : ByteArray) : Except Problem Document :=
  match String.fromUTF8? bytes with
  | none => .error .notUtf8
  | some s => parseDocument s

/-- The graph of a text. -/
def loadGraph (s : String) : Except Problem Graph := do resolve (← parseDocument s)

end ContractBinding.Abi
