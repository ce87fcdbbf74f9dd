import ContractBinding.Proofs.Abi.Resolution

/-!
# Faithful graphs

The graph of a document has the entries of the document, finds each under its own name, and
mentions no name that it does not declare. Whoever holds such a graph can follow every reference
in it without looking at the document again.
-/

namespace ContractBinding.Abi

/-- Every name below the arrays of a type is declared. -/
def Graph.Closed (g : Graph) (expr : TypeExpr) : Prop :=
  ∀ name, expr.namedRef? = some name → g.declares name = true

/-- A graph that has the entries of a document and a target for every reference. -/
structure Graph.Faithful (doc : Document) (g : Graph) : Prop where
  aliases_named : g.aliases.map Alias.name = doc.aliases.map AliasDecl.name
  structs_named : g.structs.map Struct.name = doc.structs.map StructDecl.name
  variants_named : g.variants.map Variant.name = doc.variants.map VariantDecl.name
  actions_named : g.actions.map Action.name = doc.actions.map ActionDecl.name
  tables_named : g.tables.map Table.name = doc.tables.map TableDecl.name
  /-- A name leads to the place of the entry that has it. -/
  decl?_eq : ∀ name decl, g.decl? name = some decl ↔ g.nameAt? decl = some name
  alias?_eq : ∀ name a, g.alias? name = some a ↔ a ∈ g.aliases ∧ a.name = name
  struct?_eq : ∀ name s, g.struct? name = some s ↔ s ∈ g.structs ∧ s.name = name
  variant?_eq : ∀ name v, g.variant? name = some v ↔ v ∈ g.variants ∧ v.name = name
  aliases_closed : ∀ a ∈ g.aliases, g.Closed a.target
  ownFields_closed : ∀ s ∈ g.structs, ∀ f ∈ s.ownFields, g.Closed f.type.expr
  fields_closed : ∀ s ∈ g.structs, ∀ f ∈ s.fields, g.Closed f.type.expr
  branches_closed : ∀ v ∈ g.variants, ∀ b ∈ v.branches, g.Closed b.type
  actions_closed : ∀ a ∈ g.actions, ∀ f ∈ a.fields, g.Closed f.type.expr
  branches_numbered : ∀ v ∈ g.variants, ∀ position b, v.branch? position = some b →
    b.index = position
  /-- An action has the fields of the struct that it names. -/
  actions_typed : ∀ a ∈ g.actions, ∃ s, g.struct? a.structName = some s ∧ a.fields = s.fields
  /-- A table finds its row. -/
  tables_typed : ∀ t ∈ g.tables, ∃ s, g.struct? t.rowStruct = some s ∧
    g.tableRow? t.name = some s

/-- The ancestors that a walk finds are among the structs. -/
theorem mem_of_mem_ancestors {index : Index} {own : List OwnStruct} {start : String}
    {visited : List Nat} {s : OwnStruct} {above : List OwnStruct}
    (h : ancestors index own start visited s = .ok above) : ∀ o ∈ above, o ∈ own := by
  fun_induction ancestors index own start visited s generalizing above with
  | case1 visited s hnone =>
    cases h
    simp
  | case2 => simp at h
  | case3 => simp at h
  | case4 visited s base hb position hl hv parent hparent ih =>
    obtain ⟨farther, hfarther, hr⟩ := Outcome.bind_eq_ok_iff.1 h
    cases Outcome.pure_eq_ok_iff.1 hr
    rintro o ho
    rcases List.mem_cons.1 ho with rfl | ho
    · exact List.mem_of_getElem? hparent
    · exact ih hfarther o ho
  | case5 => simp at h

namespace ResolvedTypes

variable {doc : Document} {g : Graph}

/-- What the graph declares below the arrays of a type is what the document declares. -/
theorem closed_iff (h : ResolvedTypes doc g) {expr : TypeExpr} :
    g.Closed expr ↔ Closed (doc.declarations.map Prod.fst) expr := by
  unfold Graph.Closed Closed
  simp only [h.declares_iff, Document.map_fst_declarations]

/-- The targets of aliases mention declared names only. -/
theorem aliases_closed (h : ResolvedTypes doc g) {a : Alias} (ha : a ∈ g.aliases) :
    g.Closed a.target := by
  obtain ⟨decl, -, hr⟩ := Outcome.exists_mem_left (Outcome.mapM_eq_ok_iff.1 h.aliases) ha
  exact h.closed_iff.2 (resolvePlain_eq_ok_iff.1 (resolveAlias_eq_ok_iff.1 hr).2).2

/-- A branch of a variant is that of a token at its position. -/
theorem exists_resolveBranch (h : ResolvedTypes doc g) {v : Variant} (hv : v ∈ g.variants)
    {position : Nat} {b : Branch} (hb : v.branches[position]? = some b) :
    ∃ token, resolveBranch doc.declarations v.name (token, position) = .ok b := by
  obtain ⟨decl, -, hr⟩ := Outcome.exists_mem_left (Outcome.mapM_eq_ok_iff.1 h.variants) hv
  obtain ⟨-, hname, hbranches⟩ := resolveVariant_eq_ok_iff.1 hr
  obtain ⟨token, -, hb⟩ := Outcome.getElem?_of_mapM_zipIdx hbranches hb
  exact ⟨token, hname ▸ hb⟩

/-- The types of branches mention declared names only. -/
theorem branches_closed (h : ResolvedTypes doc g) {v : Variant} (hv : v ∈ g.variants) {b : Branch}
    (hb : b ∈ v.branches) : g.Closed b.type := by
  obtain ⟨position, hposition⟩ := List.mem_iff_getElem?.1 hb
  obtain ⟨token, hr⟩ := h.exists_resolveBranch hv hposition
  exact h.closed_iff.2 (resolvePlain_eq_ok_iff.1 (resolveBranch_eq_ok_iff.1 hr).2).2

/-- A branch is numbered by its position. -/
theorem branches_numbered (h : ResolvedTypes doc g) {v : Variant} (hv : v ∈ g.variants)
    {position : Nat} {b : Branch} (hb : v.branch? position = some b) : b.index = position := by
  obtain ⟨token, hr⟩ := h.exists_resolveBranch hv hb
  exact (resolveBranch_eq_ok_iff.1 hr).1

/-- A struct of the graph comes from one of the document, with the fields of those above it. -/
theorem exists_own (h : ResolvedTypes doc g) {s : Struct} (hs : s ∈ g.structs) :
    ∃ own o above, doc.structs.mapM (resolveOwn doc.declarations) = .ok own ∧
      (∀ p ∈ o :: above, p ∈ own) ∧ s.ownFields = o.fields ∧
      s.fields = (o :: above).reverse.flatMap OwnStruct.fields ∧
      (s.fields.map Field.name).Nodup := by
  obtain ⟨own, position, o, hp, -, ho, hr⟩ := h.exists_resolveStruct hs
  obtain ⟨above, hwalk, hdistinct, rfl⟩ := resolveStruct_eq_ok_iff.1 hr
  refine ⟨own, o, above, hp.resolved, ?_, rfl, rfl, hdistinct⟩
  exact List.forall_mem_cons.2 ⟨List.mem_of_getElem? ho, mem_of_mem_ancestors hwalk⟩

/-- No two fields of a struct have one name, those of its ancestors included. -/
theorem fields_distinct (h : ResolvedTypes doc g) {s : Struct} (hs : s ∈ g.structs) :
    (s.fields.map Field.name).Nodup := by
  obtain ⟨own, o, above, -, -, -, -, hdistinct⟩ := h.exists_own hs
  exact hdistinct

private theorem own_closed (h : ResolvedTypes doc g) {own : List OwnStruct}
    (hown : doc.structs.mapM (resolveOwn doc.declarations) = .ok own) {o : OwnStruct}
    (ho : o ∈ own) : ∀ f ∈ o.fields, g.Closed f.type.expr := by
  intro f hf
  obtain ⟨decl, -, hr⟩ := Outcome.exists_mem_left (Outcome.mapM_eq_ok_iff.1 hown) ho
  obtain ⟨-, -, hfields⟩ := resolveOwn_eq_ok_iff.1 hr
  obtain ⟨field, -, hr⟩ := Outcome.exists_mem_left (Outcome.mapM_eq_ok_iff.1 hfields) hf
  exact h.closed_iff.2 (resolveToken_eq_ok_iff.1 (resolveField_eq_ok_iff.1 hr).2.2).2

/-- The types of a struct's own fields mention declared names only. -/
theorem ownFields_closed (h : ResolvedTypes doc g) {s : Struct} (hs : s ∈ g.structs) {f : Field}
    (hf : f ∈ s.ownFields) : g.Closed f.type.expr := by
  obtain ⟨own, o, above, hown, hmem, hfields, -, -⟩ := h.exists_own hs
  exact h.own_closed hown (hmem o (List.mem_cons_self ..)) f (hfields ▸ hf)

/-- The types of all fields of a struct mention declared names only. -/
theorem fields_closed (h : ResolvedTypes doc g) {s : Struct} (hs : s ∈ g.structs) {f : Field}
    (hf : f ∈ s.fields) : g.Closed f.type.expr := by
  obtain ⟨own, o, above, hown, hmem, -, hfields, -⟩ := h.exists_own hs
  rw [hfields, List.mem_flatMap] at hf
  obtain ⟨p, hp, hf⟩ := hf
  exact h.own_closed hown (hmem p (List.mem_reverse.1 hp)) f hf

end ResolvedTypes

namespace Resolution

variable {doc : Document} {g : Graph}

/-- The actions have the names of the document. -/
theorem map_name_actions (h : Resolution doc g) :
    g.actions.map Action.name = doc.actions.map ActionDecl.name := by
  refine (Outcome.map_eq_map (Outcome.mapM_eq_ok_iff.1 h.actions) ?_).symm
  intro decl a hr
  obtain ⟨s, -, rfl⟩ := resolveAction_eq_ok_iff.1 hr
  rfl

/-- The tables have the names of the document. -/
theorem map_name_tables (h : Resolution doc g) :
    g.tables.map Table.name = doc.tables.map TableDecl.name := by
  refine (Outcome.map_eq_map (Outcome.mapM_eq_ok_iff.1 h.tables) ?_).symm
  intro decl t hr
  obtain ⟨s, -, rfl⟩ := resolveTable_eq_ok_iff.1 hr
  rfl

/-- An action has the fields of the struct that it names. -/
theorem actions_typed (h : Resolution doc g) {a : Action} (ha : a ∈ g.actions) :
    ∃ s ∈ g.structs, s.name = a.structName ∧ a.fields = s.fields := by
  obtain ⟨decl, -, hr⟩ := Outcome.exists_mem_left (Outcome.mapM_eq_ok_iff.1 h.actions) ha
  obtain ⟨s, hs, rfl⟩ := resolveAction_eq_ok_iff.1 hr
  exact ⟨s, (h.structBehind?_eq_some_iff.1 hs).1, rfl, rfl⟩

/-- A table has rows of the struct that it names. -/
theorem tables_typed (h : Resolution doc g) {t : Table} (ht : t ∈ g.tables) :
    ∃ s ∈ g.structs, s.name = t.rowStruct := by
  obtain ⟨decl, -, hr⟩ := Outcome.exists_mem_left (Outcome.mapM_eq_ok_iff.1 h.tables) ht
  obtain ⟨s, hs, rfl⟩ := resolveTable_eq_ok_iff.1 hr
  exact ⟨s, (h.structBehind?_eq_some_iff.1 hs).1, rfl⟩

/-- No two actions have one name. -/
theorem actions_distinct (h : Resolution doc g) : (g.actions.map Action.name).Nodup := by
  rw [h.map_name_actions]
  exact (checkUnique_eq_ok_iff.1 h.actionNames).2.1

/-- No two tables have one name. -/
theorem tables_distinct (h : Resolution doc g) : (g.tables.map Table.name).Nodup := by
  rw [h.map_name_tables]
  exact (checkUnique_eq_ok_iff.1 h.tableNames).2.1

/-- No two fields of an action have one name, those of ancestors of its struct included. -/
theorem actionFields_distinct (h : Resolution doc g) {a : Action} (ha : a ∈ g.actions) :
    (a.fields.map Field.name).Nodup := by
  obtain ⟨s, hs, -, hfields⟩ := h.actions_typed ha
  rw [hfields]
  exact h.fields_distinct hs

/-- A table is found under its name and under no other. -/
theorem table?_eq_some_iff (h : Resolution doc g) {name : String} {t : Table} :
    g.table? name = some t ↔ t ∈ g.tables ∧ t.name = name :=
  find?_name_eq_some_iff h.tables_distinct

/-- The graph of a document is faithful to it. -/
theorem faithful (h : Resolution doc g) : g.Faithful doc := by
  constructor
  case aliases_named => exact h.map_name_aliases
  case structs_named => exact h.map_name_structs
  case variants_named => exact h.map_name_variants
  case actions_named => exact h.map_name_actions
  case tables_named => exact h.map_name_tables
  case decl?_eq => exact fun _ _ => h.decl?_eq_some_iff
  case alias?_eq => exact fun _ _ => h.alias?_eq_some_iff
  case struct?_eq => exact fun _ _ => h.struct?_eq_some_iff
  case variant?_eq => exact fun _ _ => h.variant?_eq_some_iff
  case aliases_closed => exact fun _ => h.aliases_closed
  case ownFields_closed => exact fun _ hs _ => h.ownFields_closed hs
  case fields_closed => exact fun _ hs _ => h.fields_closed hs
  case branches_closed => exact fun _ hv _ => h.branches_closed hv
  case actions_closed =>
    intro a ha f hf
    obtain ⟨s, hs, -, hfields⟩ := h.actions_typed ha
    exact h.fields_closed hs (hfields ▸ hf)
  case branches_numbered => exact fun _ hv _ _ => h.branches_numbered hv
  case actions_typed =>
    intro a ha
    obtain ⟨s, hs, hname, hfields⟩ := h.actions_typed ha
    exact ⟨s, h.struct?_eq_some_iff.2 ⟨hs, hname⟩, hfields⟩
  case tables_typed =>
    intro t ht
    obtain ⟨s, hs, hname⟩ := h.tables_typed ht
    have hrow := h.struct?_eq_some_iff.2 ⟨hs, hname⟩
    have htable := h.table?_eq_some_iff.2 ⟨ht, rfl⟩
    exact ⟨s, hrow, by rw [Graph.tableRow?, htable, Option.bind_some, hrow]⟩

end Resolution

/-- A contract whose members have flags, perhaps a moment, and in newer rows a prize. -/
def membership : Document where
  version := none
  aliases := [⟨"flag", "bool"⟩, ⟨"flags", "flag[]"⟩]
  structs := [⟨"member", "entry", [⟨"joined", "time_point_sec?"⟩, ⟨"prize", "reward$"⟩]⟩,
    ⟨"entry", "", [⟨"on", "flags"⟩]⟩]
  actions := [⟨"join", "member", ""⟩]
  tables := [⟨"members", "member", "i64", [], []⟩]
  variants := [⟨"reward", ["asset", "string"]⟩]

/-- The graph of that contract. -/
def membershipGraph : Graph :=
  let on : Field := ⟨"on", ⟨.named "flags", false, false⟩, "entry"⟩
  let joined : Field := ⟨"joined", ⟨.primitive .timePointSec, false, true⟩, "member"⟩
  let prize : Field := ⟨"prize", ⟨.named "reward", true, false⟩, "member"⟩
  { version := none
    aliases := [⟨"flag", .primitive .bool⟩, ⟨"flags", .array (.named "flag")⟩]
    structs := [⟨"member", some "entry", [joined, prize], [on, joined, prize]⟩,
      ⟨"entry", none, [on], [on]⟩]
    actions := [⟨"join", "member", [on, joined, prize], ""⟩]
    tables := [⟨"members", "member", "i64", [], []⟩]
    variants := [⟨"reward", [⟨0, .primitive .asset⟩, ⟨1, .primitive .string⟩]⟩]
    index := [("flag", .alias 0), ("flags", .alias 1), ("member", .struct 0),
      ("entry", .struct 1), ("reward", .variant 0)] }

theorem resolve_membership : resolve membership = .ok membershipGraph :=
  Outcome.eq_ok_of_toOption (by decide +kernel)

/-- Whatever graph a document resolves to is faithful to the document. -/
theorem faithful_of_resolve {doc : Document} {g : Graph} (h : resolve doc = .ok g) :
    g.Faithful doc :=
  (resolve_eq_ok_iff.1 h).faithful

theorem faithful_membership :
    resolve membership = .ok membershipGraph ∧ membershipGraph.Faithful membership :=
  ⟨resolve_membership, faithful_of_resolve resolve_membership⟩

end ContractBinding.Abi
