import ContractBinding.Proofs.Abi.Flattening
import ContractBinding.Proofs.Abi.Phases
import ContractBinding.Proofs.Binding.References

/-!
# What generated code declares

The code of a resolved graph is made under every identifier, and it declares every name that it
mentions. Each exported name has a line of its own that starts its declaration.
-/

namespace ContractBinding.Binding

open Abi (Alias Graph Struct Variant)
open Text (HasLine)

/-- The code declares a name, as an interface or as a type. -/
def Declares (text name : String) : Prop :=
  HasLine text ("export interface " ++ name ++ " ") ∨ HasLine text ("export type " ++ name ++ " = ")

namespace Listing

variable {l : Listing} {header text : String}

/-- An interface starts with its name. -/
theorem Block.heading_eq (b : Block) :
    ∃ rest, b.heading = "export interface " ++ b.name ++ " " ++ rest := by
  unfold Block.heading Block.heritage
  cases b.parent with
  | none => exact ⟨"\x7b\n", by simp only [String.append_assoc]; rfl⟩
  | some parent =>
    exact ⟨"extends " ++ parent ++ " \x7b\n", by simp only [String.append_assoc]; rfl⟩

/-- Every exported type is declared in the text. -/
theorem WrittenIn.declares (h : l.WrittenIn header text) {name : String}
    (hname : name ∈ l.typeExports) : Declares text name := by
  rw [typeExports, List.mem_append, List.mem_append] at hname
  rcases hname with (hblock | hdefinition) | hchoice
  · obtain ⟨b, hb, rfl⟩ := List.mem_map.1 hblock
    have hheading : HasLine text b.heading := (h.blocks b hb).of_append.of_append
    obtain ⟨rest, hrest⟩ := b.heading_eq
    rw [hrest] at hheading
    exact .inl hheading.of_append
  · obtain ⟨d, hd, rfl⟩ := List.mem_map.1 hdefinition
    exact .inr (h.definitions d hd).of_append.of_append
  · obtain ⟨c, hc, rfl⟩ := List.mem_map.1 hchoice
    have hnumber : "export type " ++ c.name ++ " = [number, " =
        "export type " ++ c.name ++ " = " ++ "[number, " := by
      simp only [String.append_assoc]
      rfl
    have hline : HasLine text ("export type " ++ c.name ++ " = [number, ") :=
      (h.choices c hc).of_append.of_append
    rw [hnumber] at hline
    exact .inr hline.of_append

/-- The exported types of a graph are its structs, its aliases and its variants. -/
theorem typeExports_ofGraph (g : Graph) (contract : String) :
    (ofGraph g contract).typeExports =
      (g.structs.map Struct.name ++ g.aliases.map Alias.name ++ g.variants.map Variant.name).map
        (Mapping.ofGraph g contract).exportedName := by
  rw [List.map_append, List.map_append, List.map_map, List.map_map, List.map_map, typeExports,
    ofGraph, List.map_map, List.map_map, List.map_map]
  rfl

end Listing

namespace Interface

/-- The exports of an interface are the types that are written, and the contract. -/
theorem exports_ofGraph (g : Graph) (contract : String) : (ofGraph g contract).exports =
    (Listing.ofGraph g contract).typeExports ++ [contract] := by
  have hexports (i : Interface) : i.exports = i.listing.typeExports ++ [i.contract] := by
    rw [listing, Listing.typeExports, List.map_map, List.map_map, List.map_map]
    rfl
  rw [hexports, listing_ofGraph]
  rfl

/-- The members of an interface are those that are written. -/
theorem members_ofGraph (g : Graph) (contract : String) :
    (ofGraph g contract).members = (Listing.ofGraph g contract).members := by
  have hmembers (i : Interface) : i.members = i.listing.members := by
    rw [listing, Listing.members, List.map_map, List.map_map, List.map_map]
    rfl
  rw [hmembers, listing_ofGraph]

end Interface

/-! ## Resolved graphs -/

section Resolved

variable {doc : Abi.Document} {g : Graph} {contract : String}

/-- Every reference of a resolved graph leads to a declaration. -/
theorem linked_of_resolve (hg : Abi.resolve doc = .ok g) : Linked g := by
  have hf := Abi.faithful_of_resolve hg
  have hr := Abi.resolve_eq_ok_iff.1 hg
  constructor
  case bases =>
    intro s hs base hb
    obtain ⟨parent, hparent, -⟩ := hr.fields_eq_of_base hs hb
    exact ⟨parent, hparent⟩
  case fields => exact hf.fields_closed
  case targets => exact hf.aliases_closed
  case branches => exact hf.branches_closed
  case arguments => exact hf.actions_closed
  case rows =>
    intro t ht
    obtain ⟨s, hs, -⟩ := hf.tables_typed t ht
    exact ⟨s, hs⟩

/-- What the code of a resolved graph refers to is declared. -/
theorem Rendered.declares_of_resolve (hg : Abi.resolve doc = .ok g) {name : String}
    (h : Rendered g (Mapping.ofGraph g contract) name) : g.declares name = true := by
  have hl := linked_of_resolve hg
  have hf := Abi.faithful_of_resolve hg
  refine h.declares hl fun s hs f hf' name hn => ?_
  exact hl.declares_of_mem_namesOf (hf.ownFields_closed s hs f hf') hn

/-- A declared name of a resolved graph is exported. -/
theorem mem_typeExports_of_declares (contract : String) (hg : Abi.resolve doc = .ok g)
    {name : String} (h : g.declares name = true) :
    (Mapping.ofGraph g contract).exportedName name ∈
      (Listing.ofGraph g contract).typeExports := by
  have hr := Abi.resolve_eq_ok_iff.1 hg
  have hname := hr.declares_iff.1 h
  rw [Listing.typeExports_ofGraph]
  refine List.mem_map_of_mem ?_
  rw [hr.map_name_structs, hr.map_name_aliases, hr.map_name_variants]
  rw [Abi.Document.typeNames, List.mem_append, List.mem_append] at hname
  rw [List.mem_append, List.mem_append]
  exact hname.imp_left Or.symm

/-- The code of a graph without dangling references is made under every identifier. -/
theorem emit_of_linked (hl : Linked g) {header : Header}
    (hc : Name.isIdentifier contract = true) :
    emit g contract header = .ok ((Interface.ofGraph g contract).text header) :=
  emit_eq_ok_iff.2 ⟨_, interface_eq_ok_iff.2 ⟨hc, checkReferences_eq_ok_iff.2 hl, rfl⟩, rfl⟩

/-- No code is made under what is no identifier. -/
theorem emit_of_not_isIdentifier {header : Header} (hc : Name.isIdentifier contract = false) :
    emit g contract header = .error (.contractName contract) := by
  unfold emit interface
  rw [hc]
  rfl

/-- The code of a resolved graph is refused for the contract name alone. -/
theorem emit_eq_error_iff (hg : Abi.resolve doc = .ok g) {header : Header} {problem : Abi.Problem} :
    emit g contract header = .error problem ↔
      Name.isIdentifier contract = false ∧ problem = .contractName contract := by
  cases hc : Name.isIdentifier contract with
  | true => simp [emit_of_linked (linked_of_resolve hg) hc]
  | false => simp [emit_of_not_isIdentifier hc, eq_comm]

/-- What a text of a document leads to is never a dangling reference. -/
theorem code_ne_unresolvedAtEmit {abi : String} {header : Header} {problem : Abi.Problem}
    (h : generate abi contract header = .error problem) : problem.code ≠ .unresolvedAtEmit := by
  unfold generate at h
  cases hload : Abi.loadGraph abi with
  | error earlier =>
    rw [hload] at h
    cases h
    intro hcode
    have hphase := Abi.refusedBy_loadGraph abi problem hload
    exact hphase (congrArg Abi.Code.phase hcode)
  | ok g =>
    obtain ⟨doc, -, hg⟩ := Outcome.bind_eq_ok_iff.1 hload
    rw [hload] at h
    obtain ⟨-, rfl⟩ := (emit_eq_error_iff hg).1 h
    simp [Abi.Problem.code]

/-- The code of a resolved graph is made under every identifier and refused under any other name
for that reason alone. Its text declares every name that stands for a type of the document in it,
and the names that stand there are those that the graph refers to. -/
structure Generated (g : Graph) (contract : String) (header : Header) : Prop where
  ok_iff : (∃ text, emit g contract header = .ok text) ↔ Name.isIdentifier contract = true
  error_iff : ∀ problem, emit g contract header = .error problem ↔
    Name.isIdentifier contract = false ∧ problem = .contractName contract
  shown : ∀ text, emit g contract header = .ok text → ShownIn g contract header.text text
  /-- What interfaces extend and the rows of tables are exported. -/
  references_declared : ∀ text, emit g contract header = .ok text →
    ∀ name ∈ (Listing.ofGraph g contract).references,
      name ∈ (Listing.ofGraph g contract).typeExports ∧ Declares text name
  /-- Names in the types of keys, parameters, aliases and variants are exported. -/
  types_declared : ∀ text, emit g contract header = .ok text →
    ∀ type ∈ (Listing.ofGraph g contract).types, ∀ name ∈ Name.namesIn type,
      name ∈ hostNames ∨ name ∈ (Listing.ofGraph g contract).typeExports ∧ Declares text name
  /-- What the graph refers to is exported, whatever the host calls its own types. -/
  rendered_declared : ∀ text, emit g contract header = .ok text →
    ∀ declared, Rendered g (Mapping.ofGraph g contract) declared →
      (Mapping.ofGraph g contract).exportedName declared ∈
          (Listing.ofGraph g contract).typeExports ∧
        Declares text ((Mapping.ofGraph g contract).exportedName declared)
  /-- No text of a document leads to a dangling reference. -/
  never_dangling : ∀ abi problem, generate abi contract header = .error problem →
    problem.code ≠ .unresolvedAtEmit

/-- The code of a resolved graph declares what it mentions. -/
theorem generated_of_resolve (hg : Abi.resolve doc = .ok g) (contract : String)
    (header : Header) : Generated g contract header := by
  have hrendered (text : String) (he : emit g contract header = .ok text) (declared : String)
      (h : Rendered g (Mapping.ofGraph g contract) declared) :
      (Mapping.ofGraph g contract).exportedName declared ∈
          (Listing.ofGraph g contract).typeExports ∧
        Declares text ((Mapping.ofGraph g contract).exportedName declared) := by
    have hexported := mem_typeExports_of_declares contract hg (h.declares_of_resolve hg)
    exact ⟨hexported, (writtenIn_of_emit he).declares hexported⟩
  constructor
  case ok_iff =>
    constructor
    · rintro ⟨text, he⟩
      obtain ⟨i, hi, -⟩ := emit_eq_ok_iff.1 he
      exact (interface_eq_ok_iff.1 hi).1
    · exact fun hc => ⟨_, emit_of_linked (linked_of_resolve hg) hc⟩
  case error_iff => exact fun _ => emit_eq_error_iff hg
  case shown => exact fun _ => shownIn_of_emit
  case references_declared =>
    intro text he name hname
    obtain ⟨declared, h, rfl⟩ := Listing.exists_rendered_of_mem_references hname
    exact hrendered text he declared h
  case types_declared =>
    intro text he type htype name hname
    have hwritten : name ∈ (Listing.ofGraph g contract).typeNames :=
      List.mem_append_right _ (List.mem_flatMap.2 ⟨type, htype, hname⟩)
    refine ((shownIn_of_emit he).nothing_else name hwritten).imp_right ?_
    rintro ⟨declared, h, rfl⟩
    exact hrendered text he declared h
  case rendered_declared => exact hrendered
  case never_dangling => exact fun _ _ => code_ne_unresolvedAtEmit

theorem membership_generated :
    Abi.resolve Abi.membership = .ok Abi.membershipGraph ∧
      (Listing.ofGraph Abi.membershipGraph "Dao").references = ["DaoEntry", "DaoMember"] ∧
      (Listing.ofGraph Abi.membershipGraph "Dao").types =
        ["Date | null", "DaoReward", "DaoFlags", "boolean", "Array<DaoFlag>", "Asset", "string",
          "DaoFlags", "Date | null", "DaoReward", "DaoFlags", "Date | null", "DaoReward"] ∧
      Generated Abi.membershipGraph "Dao" ⟨defaultRuntimeModule, none⟩ :=
  ⟨Abi.resolve_membership, by decide, by decide,
    generated_of_resolve Abi.resolve_membership "Dao" _⟩

end Resolved

end ContractBinding.Binding
