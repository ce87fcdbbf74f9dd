import ContractBinding.Proofs.Binding.Declarations

/-!
# What interfaces inherit

The interface of a struct has the keys of its own fields and extends the interface of its base.
With all that it extends, from the root down, it has the keys of all fields of the struct, in the
order in which rows and arguments are read and sent.
-/

namespace ContractBinding.Binding

open Abi (Field Graph ResolvedTypes Struct)
open Listing (Block Entry)

namespace Listing

/-- An interface followed by those that it extends, the nearest first. -/
inductive Heritage (l : Listing) : Block → List Block → Prop where
  | root {b : Block} (h : b.parent = none) : Heritage l b [b]
  | child {b parent : Block} {above : List Block} (h : b.parent = some parent.name)
    (hp : parent ∈ l.blocks) (hl : Heritage l parent above) : Heritage l b (b :: above)

variable {l : Listing} {b : Block} {blocks other : List Block}

/-- Where no two interfaces have one name, an interface extends one row of others. -/
theorem Heritage.unique (hd : (l.blocks.map Block.name).Nodup) (h : l.Heritage b blocks)
    (ho : l.Heritage b other) : blocks = other := by
  induction h generalizing other with
  | root hnone =>
    cases ho with
    | root _ => rfl
    | child hsome _ _ => simp [hnone] at hsome
  | child hsome hp _ ih =>
    cases ho with
    | root hnone => simp [hnone] at hsome
    | child hsome' hp' hl' =>
      have hname := Option.some.inj (hsome.symm.trans hsome')
      cases List.inj_on_of_nodup_map hd hp hp' hname
      rw [ih hl']

end Listing

variable {doc : Abi.Document} {g : Graph} {contract : String} {m : Mapping} {s : Struct}
  {line : List Struct}

/-- The interfaces of a lineage extend each other as the structs do. -/
theorem heritage_of_lineage (hg : ResolvedTypes doc g) (contract : String)
    (h : g.Lineage s line) : (Listing.ofGraph g contract).Heritage
      (.ofStruct (Mapping.ofGraph g contract) s)
      (line.map (.ofStruct (Mapping.ofGraph g contract))) := by
  induction h with
  | root hnone => exact .root (by simp [Block.ofStruct, hnone])
  | child hbase _ ih =>
    obtain ⟨base, hsome, hparent⟩ := hbase
    obtain ⟨hp, rfl⟩ := hg.struct?_eq_some_iff.1 hparent
    exact .child (by simp [Block.ofStruct, hsome]) (List.mem_map_of_mem hp) ih

/-- The interfaces of a lineage have the keys of its own fields. -/
theorem entries_of_lineage (m : Mapping) (line : List Struct) :
    (line.map (Block.ofStruct m)).reverse.flatMap Block.entries =
      (line.reverse.flatMap Struct.ownFields).map (Entry.ofField m) := by
  rw [← List.map_reverse, List.flatMap_map, List.map_flatMap]
  rfl

/-- The interfaces that are written for a struct and its ancestors extend one another as the structs
do, and from the root down they have the keys of the fields of the struct, in their order. -/
structure Listing.Inherits (l : Listing) (m : Mapping) (s : Struct) (line : List Struct) :
    Prop where
  written : ∀ t ∈ line, .ofStruct m t ∈ l.blocks
  heritage : l.Heritage (.ofStruct m s) (line.map (.ofStruct m))
  keys : List.Forall₂ (Entry.IsKeyOf m) s.fields
    ((line.map (Block.ofStruct m)).reverse.flatMap Block.entries)
  /-- Nothing else is extended, unless an interface that is extended has a namesake. -/
  unique : (l.blocks.map Block.name).Nodup → ∀ blocks,
    l.Heritage (.ofStruct m s) blocks → blocks = line.map (.ofStruct m)

/-- The interfaces of a lineage inherit its fields. -/
theorem inherits_of_lineage (hg : ResolvedTypes doc g) (contract : String) (hs : s ∈ g.structs)
    (h : g.Lineage s line) :
    (Listing.ofGraph g contract).Inherits (Mapping.ofGraph g contract) s line where
  written _ ht :=
    List.mem_map_of_mem (h.mem (fun _ _ hp => (hg.struct?_eq_some_iff.1 hp).1) hs _ ht)
  heritage := heritage_of_lineage hg contract h
  keys := by
    rw [entries_of_lineage, ← hg.fields_eq_of_lineage hs h]
    exact Listing.forall₂_isKeyOf _ _
  unique hd _ hblocks := hblocks.unique hd (heritage_of_lineage hg contract h)

/-- The fields of the structs of a graph are flattened along base links, and the code of the graph
says the same of them. -/
structure Flattened (g : Graph) : Prop where
  /-- The fields of a base come before those of the struct. -/
  of_base : ∀ s ∈ g.structs, ∀ base, s.base = some base →
    ∃ parent, g.struct? base = some parent ∧ s.fields = parent.fields ++ s.ownFields
  of_root : ∀ s ∈ g.structs, s.base = none → s.fields = s.ownFields
  distinct : ∀ s ∈ g.structs, (s.fields.map Field.name).Nodup
  /-- A field is an own field of the struct that it is declared in, and of no other of the line. -/
  declaring : ∀ s ∈ g.structs, ∃ line, g.Lineage s line ∧ ∀ f ∈ s.fields,
    ∃ t ∈ line, g.struct? f.declaredIn = some t ∧ ∀ u ∈ line, f ∈ u.ownFields ↔ u = t
  founded : WellFounded g.IsBase
  /-- The arguments of an action are sent in the order of the fields of its struct. -/
  arguments : ∀ a ∈ g.actions, ∃ s, g.struct? a.structName = some s ∧ a.fields = s.fields
  /-- The code has the fields of a struct in the interfaces of the struct and its ancestors, each on
  a line of its own. -/
  emitted : ∀ contract header, Name.isIdentifier contract = true →
    ∃ text, emit g contract header = .ok text ∧
      (Listing.ofGraph g contract).WrittenIn header.text text ∧
      ∀ s ∈ g.structs, ∃ line, g.Lineage s line ∧
        (Listing.ofGraph g contract).Inherits (Mapping.ofGraph g contract) s line

/-- The fields of a resolved document are flattened. -/
theorem flattened_of_resolve (h : Abi.resolve doc = .ok g) : Flattened g := by
  have hresolution := Abi.resolve_eq_ok_iff.1 h
  have hg := hresolution.toResolvedTypes
  constructor
  case of_base => exact fun _ hs _ => hg.fields_eq_of_base hs
  case of_root => exact fun _ => hg.fields_eq_of_root
  case distinct => exact fun _ => hg.fields_distinct
  case declaring =>
    intro s hs
    obtain ⟨line, hline, -⟩ := hg.exists_lineage hs
    exact ⟨line, hline, fun f => hg.exists_declaring hs hline⟩
  case founded => exact hg.wellFounded_isBase
  case arguments =>
    intro a ha
    obtain ⟨s, hs, hname, hfields⟩ := hresolution.actions_typed ha
    exact ⟨s, hg.struct?_eq_some_iff.2 ⟨hs, hname⟩, hfields⟩
  case emitted =>
    intro contract header hc
    have htext : emit g contract header = .ok ((Interface.ofGraph g contract).text header) :=
      emit_of_linked (linked_of_resolve h) hc
    refine ⟨_, htext, writtenIn_of_emit htext, fun s hs => ?_⟩
    obtain ⟨line, hline, -⟩ := hg.exists_lineage hs
    exact ⟨line, hline, inherits_of_lineage hg contract hs hline⟩

theorem flattened_membership : Abi.resolve Abi.membership = .ok Abi.membershipGraph ∧
    (∃ s ∈ Abi.membershipGraph.structs, s.base = some "entry" ∧
      s.fields.map Field.name = ["on", "joined", "prize"]) ∧
    Flattened Abi.membershipGraph :=
  ⟨Abi.resolve_membership, by decide, flattened_of_resolve Abi.resolve_membership⟩

end ContractBinding.Binding
