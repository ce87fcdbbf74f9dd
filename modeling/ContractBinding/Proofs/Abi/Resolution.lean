import ContractBinding.Proofs.Abi.Aliases
import ContractBinding.Proofs.Abi.Bases

/-!
# Resolution

What it means that a document has resolved to a graph: every check has passed, and every list of
the graph holds the entries of the document's list, each resolved. Names are then found where
they are declared, and every walk along aliases ends.
-/

namespace ContractBinding.Abi

open Relation

/-- The types of a document have resolved to those of a graph. -/
structure ResolvedTypes (doc : Document) (g : Graph) : Prop where
  index : g.index = doc.declarations
  present : ∀ name ∈ doc.typeNames, Text.isBlankText name = false
  distinct : doc.typeNames.Nodup
  aliases : doc.aliases.mapM (resolveAlias doc.declarations) = .ok g.aliases
  acyclic : ∀ name, ¬ TransGen (LinkIn g.aliases) name name
  variants : doc.variants.mapM (resolveVariant doc.declarations) = .ok g.variants
  structs : resolveStructs doc.declarations doc.structs = .ok g.structs

/-- A document has resolved to a graph. -/
structure Resolution (doc : Document) (g : Graph) : Prop extends ResolvedTypes doc g where
  version : g.version = doc.version
  actionNames : checkUnique .action [] (doc.actions.map ActionDecl.name) = .ok ()
  tableNames : checkUnique .table [] (doc.tables.map TableDecl.name) = .ok ()
  actions : doc.actions.mapM (resolveAction g) = .ok g.actions
  tables : doc.tables.mapM (resolveTable g) = .ok g.tables

namespace Graph

variable {g : Graph}

/-- The name that the graph gives to the entry at a place. -/
def nameAt? (g : Graph) : Decl → Option String
  | .alias position => g.aliases[position]?.map Alias.name
  | .struct position => g.structs[position]?.map Struct.name
  | .variant position => g.variants[position]?.map Variant.name

/-- An alias is found at its place. -/
theorem alias?_eq_some_iff_place {name : String} {a : Alias} :
    g.alias? name = some a ↔
      ∃ position, g.decl? name = some (.alias position) ∧ g.aliases[position]? = some a := by
  unfold alias?
  split
  · next position hdecl => simp [hdecl]
  · next hno =>
    refine iff_of_false (by simp) ?_
    rintro ⟨position, hdecl, -⟩
    exact hno position hdecl

/-- A struct is found at its place. -/
theorem struct?_eq_some_iff_place {name : String} {s : Struct} :
    g.struct? name = some s ↔
      ∃ position, g.decl? name = some (.struct position) ∧ g.structs[position]? = some s := by
  unfold struct?
  split
  · next position hdecl => simp [hdecl]
  · next hno =>
    refine iff_of_false (by simp) ?_
    rintro ⟨position, hdecl, -⟩
    exact hno position hdecl

/-- A variant is found at its place. -/
theorem variant?_eq_some_iff_place {name : String} {v : Variant} :
    g.variant? name = some v ↔
      ∃ position, g.decl? name = some (.variant position) ∧ g.variants[position]? = some v := by
  unfold variant?
  split
  · next position hdecl => simp [hdecl]
  · next hno =>
    refine iff_of_false (by simp) ?_
    rintro ⟨position, hdecl, -⟩
    exact hno position hdecl

/-- The name of a struct is that of no alias and of no variant. -/
theorem others_of_struct? {name : String} {s : Struct} (hs : g.struct? name = some s) :
    g.alias? name = none ∧ g.variant? name = none := by
  obtain ⟨_, hdecl, -⟩ := struct?_eq_some_iff_place.1 hs
  exact ⟨by rw [alias?, hdecl], by rw [variant?, hdecl]⟩

/-- The name of a variant is that of no alias and of no struct. -/
theorem others_of_variant? {name : String} {v : Variant} (hv : g.variant? name = some v) :
    g.alias? name = none ∧ g.struct? name = none := by
  obtain ⟨_, hdecl, -⟩ := variant?_eq_some_iff_place.1 hv
  exact ⟨by rw [alias?, hdecl], by rw [struct?, hdecl]⟩

-- Walks along aliases read the types of a graph and neither its actions nor its tables.
private theorem follow_types (actions : List Action) (tables : List Table) (steps : Nat)
    (expr : TypeExpr) :
    Graph.follow { g with actions, tables } steps expr = g.follow steps expr := by
  induction steps generalizing expr with
  | zero => rfl
  | succ steps ih =>
    cases expr with
    | primitive p => rfl
    | array element => rfl
    | named name =>
      have ha : Graph.alias? { g with actions, tables } name = g.alias? name := rfl
      unfold follow
      rw [ha]
      cases g.alias? name with
      | none => rfl
      | some a => exact ih a.target

/-- The struct behind a token is a matter of the types alone. -/
theorem structBehind?_types (actions : List Action) (tables : List Table) (token : String) :
    Graph.structBehind? { g with actions, tables } token = g.structBehind? token := by
  unfold structBehind? behind
  rw [follow_types]
  rfl

end Graph

/-- An action resolves where there is a struct behind its type, and has the fields of that. -/
theorem resolveAction_eq_ok_iff {g : Graph} {decl : ActionDecl} {a : Action} :
    resolveAction g decl = .ok a ↔ ∃ s, g.structBehind? decl.type = some s ∧
      a = ⟨decl.name, s.name, s.fields, decl.ricardianContract⟩ := by
  unfold resolveAction
  cases g.structBehind? decl.type <;> simp [eq_comm]

/-- A table resolves where there is a struct behind its type, and has rows of that. -/
theorem resolveTable_eq_ok_iff {g : Graph} {decl : TableDecl} {t : Table} :
    resolveTable g decl = .ok t ↔ ∃ s, g.structBehind? decl.type = some s ∧
      t = ⟨decl.name, s.name, decl.indexType, decl.keyNames, decl.keyTypes⟩ := by
  unfold resolveTable
  cases g.structBehind? decl.type <;> simp [eq_comm]

private theorem resolveAction_types (g : Graph) (actions : List Action) (tables : List Table) :
    resolveAction { g with actions, tables } = resolveAction g := by
  funext a
  unfold resolveAction
  rw [Graph.structBehind?_types]

private theorem resolveTable_types (g : Graph) (actions : List Action) (tables : List Table) :
    resolveTable { g with actions, tables } = resolveTable g := by
  funext t
  unfold resolveTable
  rw [Graph.structBehind?_types]

/-- Resolving succeeds with the graphs that a document has resolved to. -/
theorem resolve_eq_ok_iff {doc : Document} {g : Graph} :
    resolve doc = .ok g ↔ Resolution doc g := by
  have hnames : checkDeclarations [] doc.declarations = .ok () ↔
      (∀ name ∈ doc.typeNames, Text.isBlankText name = false) ∧ doc.typeNames.Nodup ∧
        ∀ name ∈ doc.typeNames, name ∉ ([] : Index).map Prod.fst := by
    rw [checkDeclarations_eq_ok_iff, Document.map_fst_declarations]
  have hcheck {aliases : List Alias} (hd : doc.typeNames.Nodup)
      (ha : doc.aliases.mapM (resolveAlias doc.declarations) = .ok aliases) :=
    checkAliasCycles_eq_ok_iff (map_name_aliases ha ▸ Document.aliases_distinct hd)
  unfold resolve
  simp only [Outcome.bind_eq_ok_iff, Outcome.pure_eq_ok_iff]
  constructor
  · rintro ⟨_, hdecls, _, hactionNames, _, htableNames, aliases, haliases, _, hcycles, variants,
      hvariants, structs, hstructs, actions, hactions, tables, htables, rfl⟩
    obtain ⟨hpresent, hdistinct, -⟩ := hnames.1 hdecls
    refine ⟨⟨rfl, hpresent, hdistinct, haliases, (hcheck hdistinct haliases).1 hcycles, hvariants,
      hstructs⟩, rfl, hactionNames, htableNames, ?_, ?_⟩
    · rw [← hactions, ← resolveAction_types _ [] []]
    · rw [← htables, ← resolveTable_types _ [] []]
  · intro h
    refine ⟨(), hnames.2 ⟨h.present, h.distinct, by simp⟩, (), h.actionNames, (), h.tableNames,
      g.aliases, h.aliases, (), (hcheck h.distinct h.aliases).2 h.acyclic, g.variants, h.variants,
      g.structs, h.structs, g.actions, ?_, g.tables, ?_, ?_⟩
    · rw [← h.actions, ← resolveAction_types g [] [], h.version, h.index]
    · rw [← h.tables, ← resolveTable_types g [] [], h.version, h.index]
    · rw [← h.version, ← h.index]

namespace ResolvedTypes

variable {doc : Document} {g : Graph}

/-- The aliases have the names of the document. -/
theorem map_name_aliases (h : ResolvedTypes doc g) :
    g.aliases.map Alias.name = doc.aliases.map AliasDecl.name :=
  Abi.map_name_aliases h.aliases

/-- The variants have the names of the document. -/
theorem map_name_variants (h : ResolvedTypes doc g) :
    g.variants.map Variant.name = doc.variants.map VariantDecl.name :=
  (Outcome.map_eq_map (Outcome.mapM_eq_ok_iff.1 h.variants)
    fun _ _ hr => (resolveVariant_eq_ok_iff.1 hr).2.1.symm).symm

/-- What a struct keeps when it is resolved, first by itself and then with its ancestors, the
structs of the graph have in the order of the document. -/
theorem map_structs (h : ResolvedTypes doc g) {κ : Type} {ofDecl : StructDecl → κ}
    {ofOwn : OwnStruct → κ} {ofStruct : Struct → κ}
    (hown : ∀ decl o, resolveOwn doc.declarations decl = .ok o → ofDecl decl = ofOwn o)
    (hstruct : ∀ o fields, ofOwn o = ofStruct ⟨o.name, o.base, o.fields, fields⟩) :
    g.structs.map ofStruct = doc.structs.map ofDecl := by
  obtain ⟨own, hresolved, hstructs⟩ := resolveStructs_eq_ok_iff.1 h.structs
  have hfirst : doc.structs.map ofDecl = own.map ofOwn :=
    Outcome.map_eq_map (Outcome.mapM_eq_ok_iff.1 hresolved) hown
  have hsecond : own.zipIdx.map (ofOwn ∘ Prod.fst) = g.structs.map ofStruct := by
    refine Outcome.map_eq_map (Outcome.mapM_eq_ok_iff.1 hstructs) ?_
    intro e s hr
    obtain ⟨above, -, -, rfl⟩ := resolveStruct_eq_ok_iff.1 hr
    exact hstruct e.1 _
  rw [← hsecond, ← List.map_map, List.zipIdx_map_fst, hfirst]

/-- A struct of the graph is what one of the document resolves to, first by itself and then with its
ancestors. -/
theorem exists_resolveStruct (h : ResolvedTypes doc g) {s : Struct} (hs : s ∈ g.structs) :
    ∃ own position o, Prepared doc own ∧
      own.zipIdx.mapM (fun e => resolveStruct doc.declarations own e.2 e.1) = .ok g.structs ∧
      own[position]? = some o ∧ resolveStruct doc.declarations own position o = .ok s := by
  obtain ⟨own, hown, hstructs⟩ := resolveStructs_eq_ok_iff.1 h.structs
  obtain ⟨position, hposition⟩ := List.mem_iff_getElem?.1 hs
  obtain ⟨o, ho, hr⟩ := Outcome.getElem?_of_mapM_zipIdx hstructs hposition
  exact ⟨own, position, o, ⟨h.distinct, hown⟩, hstructs, ho, hr⟩

/-- The structs have the names of the document. -/
theorem map_name_structs (h : ResolvedTypes doc g) :
    g.structs.map Struct.name = doc.structs.map StructDecl.name :=
  h.map_structs (fun _ _ hr => (resolveOwn_eq_ok_iff.1 hr).1.symm) fun _ _ => rfl

/-- The own fields of structs have the names of the document. -/
theorem map_name_ownFields (h : ResolvedTypes doc g) :
    g.structs.map (fun s => s.ownFields.map Field.name) =
      doc.structs.map fun s => s.fields.map FieldDecl.name :=
  h.map_structs (fun _ _ hr => (map_name_fields (resolveOwn_eq_ok_iff.1 hr).2.2).symm)
    fun _ _ => rfl

/-- The entries of the graph have their names at the places of the document. -/
theorem nameAt?_eq (h : ResolvedTypes doc g) (decl : Decl) : g.nameAt? decl = doc.nameAt? decl := by
  match decl with
  | .alias position =>
    simp only [Graph.nameAt?, Document.nameAt?, ← List.getElem?_map, h.map_name_aliases]
  | .struct position =>
    simp only [Graph.nameAt?, Document.nameAt?, ← List.getElem?_map, h.map_name_structs]
  | .variant position =>
    simp only [Graph.nameAt?, Document.nameAt?, ← List.getElem?_map, h.map_name_variants]

/-- A name is found exactly at the place of the entry that has it. -/
theorem decl?_eq_some_iff (h : ResolvedTypes doc g) {name : String} {decl : Decl} :
    g.decl? name = some decl ↔ g.nameAt? decl = some name := by
  rw [Graph.decl?, h.index, Document.lookup_declarations_iff h.distinct, h.nameAt?_eq]

/-- An entry of the index is what its name leads to. -/
theorem mem_index_iff (h : ResolvedTypes doc g) {name : String} {decl : Decl} :
    (name, decl) ∈ g.index ↔ g.decl? name = some decl := by
  have hdistinct : (g.index.map Prod.fst).Nodup := by
    rw [h.index, Document.map_fst_declarations]
    exact h.distinct
  exact (lookup_eq_some_iff_mem hdistinct).symm

/-- A name is declared exactly when the document declares it. -/
theorem declares_iff (h : ResolvedTypes doc g) {name : String} :
    g.declares name = true ↔ name ∈ doc.typeNames := by
  rw [Graph.declares, Graph.decl?, h.index, Document.isSome_lookup_declarations_iff]

-- The three lists of types are searched alike: the index gives the place, the list the entry.
private theorem entry_iff (h : ResolvedTypes doc g) {α : Type} {entries : List α}
    {entryName : α → String} (kind : Nat → Decl)
    (hkind : ∀ position, g.nameAt? (kind position) = entries[position]?.map entryName)
    {name : String} {entry : α} :
    (∃ position, g.decl? name = some (kind position) ∧ entries[position]? = some entry) ↔
      entry ∈ entries ∧ entryName entry = name := by
  simp only [h.decl?_eq_some_iff, hkind]
  constructor
  · rintro ⟨position, hname, hentry⟩
    rw [hentry] at hname
    exact ⟨List.mem_of_getElem? hentry, Option.some.inj hname⟩
  · rintro ⟨hm, rfl⟩
    obtain ⟨position, hentry⟩ := List.mem_iff_getElem?.1 hm
    exact ⟨position, by rw [hentry, Option.map_some], hentry⟩

/-- An alias is found under its name and under no other. -/
theorem alias?_eq_some_iff (h : ResolvedTypes doc g) {name : String} {a : Alias} :
    g.alias? name = some a ↔ a ∈ g.aliases ∧ a.name = name := by
  rw [Graph.alias?_eq_some_iff_place, h.entry_iff .alias fun _ => rfl]

/-- A struct is found under its name and under no other. -/
theorem struct?_eq_some_iff (h : ResolvedTypes doc g) {name : String} {s : Struct} :
    g.struct? name = some s ↔ s ∈ g.structs ∧ s.name = name := by
  rw [Graph.struct?_eq_some_iff_place, h.entry_iff .struct fun _ => rfl]

/-- A variant is found under its name and under no other. -/
theorem variant?_eq_some_iff (h : ResolvedTypes doc g) {name : String} {v : Variant} :
    g.variant? name = some v ↔ v ∈ g.variants ∧ v.name = name := by
  rw [Graph.variant?_eq_some_iff_place, h.entry_iff .variant fun _ => rfl]

/-- A name of a struct is no name of an alias. -/
theorem alias?_eq_none_of_struct (h : ResolvedTypes doc g) {s : Struct} (hs : s ∈ g.structs) :
    g.alias? s.name = none :=
  (Graph.others_of_struct? (h.struct?_eq_some_iff.2 ⟨hs, rfl⟩)).1

/-- No two aliases have one name. -/
theorem aliases_distinct (h : ResolvedTypes doc g) : (g.aliases.map Alias.name).Nodup := by
  rw [h.map_name_aliases]
  exact Document.aliases_distinct h.distinct

/-- Every walk along aliases ends at what the type stands for. -/
theorem standsFor_behind (h : ResolvedTypes doc g) (expr : TypeExpr) :
    g.StandsFor expr (g.behind expr) :=
  Graph.standsFor_behind h.aliases_distinct (fun _ _ => h.alias?_eq_some_iff) h.acyclic expr

/-- A walk along aliases ends at a type exactly when it is what the walk began at stands for. -/
theorem behind_eq_iff (h : ResolvedTypes doc g) {expr t : TypeExpr} :
    g.behind expr = t ↔ g.StandsFor expr t := by
  constructor
  · rintro rfl
    exact h.standsFor_behind expr
  · exact fun ht => (h.standsFor_behind expr).unique ht

/-- The struct behind a token is what the token stands for when it is taken for a name. -/
theorem structBehind?_eq_some_iff_behind (h : ResolvedTypes doc g) {token : String} {s : Struct} :
    g.structBehind? token = some s ↔
      s ∈ g.structs ∧ g.behind (.named (Text.trim token)) = .named s.name := by
  rw [Graph.structBehind?]
  constructor
  · intro hs
    split at hs
    · next name hname =>
      obtain ⟨hm, rfl⟩ := h.struct?_eq_some_iff.1 hs
      exact ⟨hm, hname⟩
    · cases hs
  · rintro ⟨hm, hbehind⟩
    rw [hbehind]
    exact h.struct?_eq_some_iff.2 ⟨hm, rfl⟩

/-- The struct behind a token is the one that links of the document lead to. -/
theorem structBehind?_eq_some_iff (h : ResolvedTypes doc g) {token : String} {s : Struct} :
    g.structBehind? token = some s ↔
      s ∈ g.structs ∧ ReflTransGen doc.AliasLink (Text.trim token) s.name := by
  have hnamed := Graph.standsFor_named_iff (g := g) (a := Text.trim token) (b := s.name)
    fun _ _ => h.alias?_eq_some_iff
  rw [linkIn_eq_aliasLink h.aliases] at hnamed
  rw [h.structBehind?_eq_some_iff_behind, h.behind_eq_iff, hnamed]
  refine and_congr_right fun hm => ?_
  rw [and_iff_left (h.alias?_eq_none_of_struct hm)]

/-- There is a struct behind a token exactly when the token leads to one. -/
theorem exists_structBehind?_iff (h : ResolvedTypes doc g) {token : String} :
    (∃ s, g.structBehind? token = some s) ↔ doc.LeadsToStruct token := by
  simp only [h.structBehind?_eq_some_iff]
  have hnames (name : String) : (∃ s ∈ g.structs, s.name = name) ↔
      ∃ s ∈ doc.structs, s.name = name := by
    rw [← List.mem_map, ← List.mem_map, h.map_name_structs]
  constructor
  · rintro ⟨s, hs, hreach⟩
    obtain ⟨decl, hdecl, hname⟩ := (hnames s.name).1 ⟨s, hs, rfl⟩
    exact ⟨decl, hdecl, hname ▸ hreach⟩
  · rintro ⟨decl, hdecl, hreach⟩
    obtain ⟨s, hs, hname⟩ := (hnames decl.name).2 ⟨decl, hdecl, rfl⟩
    exact ⟨s, hs, hname ▸ hreach⟩

/-- The actions of a document resolve exactly when there is a struct behind each. -/
theorem exists_resolveActions_iff (h : ResolvedTypes doc g) :
    (∃ actions, doc.actions.mapM (resolveAction g) = .ok actions) ↔
      ∀ a ∈ doc.actions, doc.LeadsToStruct a.type := by
  rw [Outcome.exists_mapM_eq_ok_iff]
  apply forall₂_congr
  intro a _
  rw [← h.exists_structBehind?_iff]
  simp only [resolveAction_eq_ok_iff]
  exact ⟨fun ⟨_, s, hs, _⟩ => ⟨s, hs⟩, fun ⟨s, hs⟩ => ⟨_, s, hs, rfl⟩⟩

/-- The tables of a document resolve exactly when there is a struct behind each. -/
theorem exists_resolveTables_iff (h : ResolvedTypes doc g) :
    (∃ tables, doc.tables.mapM (resolveTable g) = .ok tables) ↔
      ∀ t ∈ doc.tables, doc.LeadsToStruct t.type := by
  rw [Outcome.exists_mapM_eq_ok_iff]
  apply forall₂_congr
  intro t _
  rw [← h.exists_structBehind?_iff]
  simp only [resolveTable_eq_ok_iff]
  exact ⟨fun ⟨_, s, hs, _⟩ => ⟨s, hs⟩, fun ⟨s, hs⟩ => ⟨_, s, hs, rfl⟩⟩

/-- A document whose types, actions and tables have resolved has resolved. -/
theorem resolution (h : ResolvedTypes doc g) (hversion : g.version = doc.version)
    (hactionNames : checkUnique .action [] (doc.actions.map ActionDecl.name) = .ok ())
    (htableNames : checkUnique .table [] (doc.tables.map TableDecl.name) = .ok ())
    {actions : List Action} (hactions : doc.actions.mapM (resolveAction g) = .ok actions)
    {tables : List Table} (htables : doc.tables.mapM (resolveTable g) = .ok tables) :
    Resolution doc { g with actions, tables } where
  toResolvedTypes :=
    ⟨h.index, h.present, h.distinct, h.aliases, h.acyclic, h.variants, h.structs⟩
  version := hversion
  actionNames := hactionNames
  tableNames := htableNames
  actions := by rw [resolveAction_types, hactions]
  tables := by rw [resolveTable_types, htables]

end ResolvedTypes

end ContractBinding.Abi
