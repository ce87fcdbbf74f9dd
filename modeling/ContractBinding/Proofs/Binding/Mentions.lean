import ContractBinding.Proofs.Binding.Emission

/-!
# The names that an interface mentions

An interface mentions exported names: where it extends another, in the types of its members, and
as rows of its tables. Each of them is the exported name of a declaration that the graph refers to.
A struct that is written in place is not mentioned itself; what its members refer to is.
-/

namespace ContractBinding.Binding

open Abi (Action Alias Branch Field Graph Struct Variant)

/-- The exported names in a type. -/
def HostType.names : HostType → List String
  | .builtin _ => []
  | .array element => element.names
  | .pair key value => key.names ++ value.names
  | .exported name => [name]

/-- The exported names in the interface of a struct, with the one that it extends. -/
def RowInterface.mentions (r : RowInterface) : List String :=
  r.parent.toList ++ r.properties.flatMap fun p => p.type.type.names

/-- The exported names that an interface mentions. -/
def Interface.mentions (i : Interface) : List String :=
  i.rows.flatMap RowInterface.mentions ++
    i.aliases.flatMap (fun a => a.target.names) ++
    i.variants.flatMap (fun v => v.members.flatMap HostType.names) ++
    i.actions.flatMap (fun a => a.parameters.flatMap fun p => p.type.type.names) ++
    i.objects.flatMap (fun o => o.properties.flatMap fun p => p.type.type.names) ++
    i.tables.map TableAccessor.row

namespace Mapping

variable {g : Graph} {contract : String} {m : Mapping}

/-- The declared names in the type of an expression: the name below its arrays, or those below the
members of a struct that is written in place. -/
def namesOf (m : Mapping) (expr : TypeExpr) : List String :=
  match expr.namedRef? with
  | none => []
  | some name =>
    match m.pairs.lookup name with
    | none => [name]
    | some (key, value) => key.namedRef?.toList ++ value.namedRef?.toList

/-- The names in the type of an expression are those in the type of its declared name. -/
theorem names_mapWith (declared : String → HostType) (expr : TypeExpr) :
    (mapWith declared expr).names =
      expr.namedRef?.toList.flatMap fun name => (declared name).names := by
  induction expr with
  | primitive p => rfl
  | array element ih => exact ih
  | named name => simp [mapWith, TypeExpr.namedRef?]

/-- The names in the type of an expression are exported names of declarations. -/
theorem names_map (hm : m.Flat) (expr : TypeExpr) :
    (m.map expr).names = (m.namesOf expr).map m.exportedName := by
  have hbelow (expr : TypeExpr) : (m.map expr).names =
      expr.namedRef?.toList.flatMap fun name => (m.map (.named name)).names :=
    names_mapWith _ expr
  rw [hbelow, namesOf]
  cases expr.namedRef? with
  | none => rfl
  | some name =>
    rw [Option.toList_some, List.flatMap_singleton, map_named hm]
    dsimp only
    cases hlookup : m.pairs.lookup name with
    | none => rfl
    | some members =>
      obtain ⟨key, value⟩ := members
      -- The members of a pair are no pairs, so they are written by their names.
      have hmember {member : TypeExpr} (h : member = key ∨ member = value) :
          (m.map member).names = member.namedRef?.toList.map m.exportedName := by
        rw [hbelow, List.map_eq_flatMap]
        refine List.flatMap_congr fun inner hinner => ?_
        rw [map_named hm, hm.lookup_eq_none hlookup h (Option.mem_toList.1 hinner)]
        rfl
      show (m.map key).names ++ (m.map value).names = _
      rw [hmember (.inl rfl), hmember (.inr rfl), List.map_append]

end Mapping

/-- The names that the code of a graph refers to, each at its place. A row shows the own fields of
its struct only. -/
inductive Rendered (g : Graph) (m : Mapping) : String → Prop where
  | base {s : Struct} {name : String} (hs : s ∈ g.structs) (hb : s.base = some name) :
    Rendered g m name
  | ownField {s : Struct} {f : Field} {name : String} (hs : s ∈ g.structs)
    (hf : f ∈ s.ownFields) (hn : name ∈ m.namesOf f.type.expr) : Rendered g m name
  | target {a : Alias} {name : String} (ha : a ∈ g.aliases) (hn : name ∈ m.namesOf a.target) :
    Rendered g m name
  | branch {v : Variant} {b : Branch} {name : String} (hv : v ∈ g.variants)
    (hb : b ∈ v.branches) (hn : name ∈ m.namesOf b.type) : Rendered g m name
  | argument {a : Action} {f : Field} {name : String} (ha : a ∈ g.actions) (hf : f ∈ a.fields)
    (hn : name ∈ m.namesOf f.type.expr) : Rendered g m name
  | row {t : Abi.Table} (ht : t ∈ g.tables) : Rendered g m t.rowStruct

/-- The types that are left once texts are joined were there before. -/
theorem mem_of_mem_distinctTexts {types : List HostType} {type : HostType}
    (h : type ∈ distinctTexts types) : type ∈ types := by
  have hkept (kept : List HostType) : ∀ other ∈ types.foldl (fun kept type =>
      if kept.any fun other => other.text = type.text then kept else kept ++ [type]) kept,
      other ∈ kept ∨ other ∈ types := by
    clear h
    induction types generalizing kept with
    | nil => exact fun _ => .inl
    | cons first rest ih =>
      intro other hother
      rcases ih _ other hother with hbefore | hrest
      · dsimp only at hbefore
        split at hbefore
        · exact .inl hbefore
        · rcases List.mem_append.1 hbefore with hbefore | hfirst
          · exact .inl hbefore
          · exact .inr (List.mem_cons.2 (.inl (List.mem_singleton.1 hfirst)))
      · exact .inr (List.mem_cons_of_mem _ hrest)
  exact (hkept [] type h).resolve_left (by simp)

namespace Interface

variable {g : Graph} {contract : String}

/-- The names in the type of an expression are exported names of what it refers to. -/
theorem exists_of_mem_names {expr : TypeExpr} {name : String}
    (h : name ∈ ((Mapping.ofGraph g contract).map expr).names) :
    ∃ declared ∈ (Mapping.ofGraph g contract).namesOf expr,
      (Mapping.ofGraph g contract).exportedName declared = name := by
  rw [Mapping.names_map (Mapping.flat_ofGraph g contract)] at h
  exact List.mem_map.1 h

/-- What an interface mentions is the exported name of something that the graph refers to. -/
theorem exists_of_mem_mentions {name : String} (h : name ∈ (ofGraph g contract).mentions) :
    ∃ declared, Rendered g (Mapping.ofGraph g contract) declared ∧
      (Mapping.ofGraph g contract).exportedName declared = name := by
  simp only [mentions, ofGraph, List.mem_append, List.mem_flatMap, List.mem_map] at h
  rcases h with ((((⟨_, ⟨s, hs, rfl⟩, hrow⟩ | ⟨_, ⟨a, ha, rfl⟩, hn⟩) |
    ⟨_, ⟨v, hv, rfl⟩, type, htype, hn⟩) | ⟨_, ⟨a, ha, rfl⟩, p, hp, hn⟩) |
    ⟨_, ⟨a, ha, rfl⟩, p, hp, hn⟩) | ⟨_, ⟨t, ht, rfl⟩, rfl⟩
  · rcases List.mem_append.1 hrow with hparent | hproperty
    · obtain ⟨base, hb, rfl⟩ := Option.map_eq_some_iff.1 (Option.mem_toList.1 hparent)
      exact ⟨base, .base hs hb, rfl⟩
    · obtain ⟨p, hp, hn⟩ := List.mem_flatMap.1 hproperty
      obtain ⟨f, hf, rfl⟩ := List.mem_map.1 hp
      obtain ⟨declared, hd, hname⟩ := exists_of_mem_names hn
      exact ⟨declared, .ownField hs hf hd, hname⟩
  · obtain ⟨declared, hd, hname⟩ := exists_of_mem_names hn
    exact ⟨declared, .target ha hd, hname⟩
  · obtain ⟨b, hb, rfl⟩ := List.mem_map.1 (mem_of_mem_distinctTexts htype)
    obtain ⟨declared, hd, hname⟩ := exists_of_mem_names hn
    exact ⟨declared, .branch hv hb hd, hname⟩
  · obtain ⟨f, hf, -, htype⟩ := Outcome.exists_mem_left (forall₂_ofFields _ a.fields) hp
    rw [htype] at hn
    obtain ⟨declared, hd, hname⟩ := exists_of_mem_names hn
    exact ⟨declared, .argument ha hf hd, hname⟩
  · obtain ⟨f, hf, rfl⟩ := List.mem_map.1 hp
    obtain ⟨declared, hd, hname⟩ := exists_of_mem_names hn
    exact ⟨declared, .argument ha hf hd, hname⟩
  · exact ⟨t.rowStruct, .row ht, rfl⟩

end Interface

end ContractBinding.Binding
