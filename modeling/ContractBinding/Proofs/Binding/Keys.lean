import ContractBinding.Proofs.Binding.Heritage
import ContractBinding.Proofs.Name.Key

/-!
# Keys of one object

The interface of a struct and those of its ancestors, which it extends, have the keys of the fields
of the struct, and an object of arguments has those of the fields of its action. The fields of
either have different names, and different names have different keys, so no key is written twice.
-/

namespace ContractBinding.Binding

open Abi (Action Field Graph ResolvedTypes Struct)
open Listing (Block Entry)

variable {doc : Abi.Document} {g : Graph} {contract : String} {m : Mapping} {fields : List Field}
  {s : Struct}

/-- Keys are those of fields, in the order of the fields, and no two of them are alike. -/
structure KeyedBy (fields : List Field) (entries : List Entry) : Prop where
  reads : entries.map (fun e => Name.readKey e.name) = fields.map Field.name
  distinct : (entries.map Entry.name).Nodup

/-- Fields of different names have different keys. -/
theorem keyedBy_of_nodup (h : (fields.map Field.name).Nodup) :
    KeyedBy fields (fields.map (Entry.ofField m)) := by
  have hread (f : Field) : Name.readKey (Entry.ofField m f).name = f.name :=
    Name.readKey_propertyKey f.name
  have hkeys : (fields.map (Entry.ofField m)).map Entry.name =
      (fields.map Field.name).map Name.propertyKey := by
    rw [List.map_map, List.map_map]
    rfl
  constructor
  case reads =>
    rw [List.map_map]
    exact List.map_congr_left fun f _ => hread f
  case distinct =>
    rw [hkeys]
    exact h.map Name.propertyKey_injective

/-- Names are read back from their keys and so have different ones, and no two keys that the code of
a graph writes for one object are alike. -/
structure KeysApart (g : Graph) : Prop where
  keyOf : ∀ name, Name.KeyOf name (Name.propertyKey name)
  injective : Function.Injective Name.propertyKey
  /-- With the interfaces that it extends, that of a struct has the keys of the fields of the
  struct, and an object of arguments has those of the fields of its action. -/
  emitted : ∀ contract header, Name.isIdentifier contract = true →
    ∃ i text, interface g contract = .ok i ∧ emit g contract header = .ok text ∧
      i.text header = text ∧ i.listing.WrittenIn header.text text ∧
      (∀ s ∈ g.structs, ∃ line, g.Lineage s line ∧
        i.listing.Inherits (Mapping.ofGraph g contract) s line ∧
        KeyedBy s.fields ((line.map (Block.ofStruct (Mapping.ofGraph g contract))).reverse.flatMap
          Block.entries)) ∧
      List.Forall₂ (fun a o => o.name = Name.objectMethod a.name ∧ KeyedBy a.fields o.entries)
        g.actions i.listing.bundles

/-- The keys of a resolved document are different within one object. -/
theorem keysApart_of_resolve (h : Abi.resolve doc = .ok g) : KeysApart g := by
  have hr := Abi.resolve_eq_ok_iff.1 h
  have hg := hr.toResolvedTypes
  constructor
  case keyOf => exact Name.keyOf_propertyKey
  case injective => exact Name.propertyKey_injective
  case emitted =>
    intro contract header hc
    have hi : interface g contract = .ok (Interface.ofGraph g contract) :=
      interface_eq_ok_iff.2 ⟨hc, checkReferences_eq_ok_iff.2 (linked_of_resolve h), rfl⟩
    refine ⟨_, _, hi, emit_eq_ok_iff.2 ⟨_, hi, rfl⟩, rfl, Interface.writtenIn_text _ _, ?_⟩
    rw [listing_ofGraph]
    refine ⟨fun s hs => ?_, ?_⟩
    · obtain ⟨line, hline, -⟩ := hg.exists_lineage hs
      refine ⟨line, hline, inherits_of_lineage hg contract hs hline, ?_⟩
      rw [entries_of_lineage, ← hg.fields_eq_of_lineage hs hline]
      exact keyedBy_of_nodup (hg.fields_distinct hs)
    · refine List.forall₂_map_right_iff.2 (List.forall₂_same.2 fun a ha => ⟨rfl, ?_⟩)
      exact keyedBy_of_nodup (hr.actionFields_distinct ha)

/-- A contract with remarks on notes, whose fields have names with quotes and a backslash. -/
def remarks : Abi.Document where
  version := none
  aliases := []
  structs := [⟨"remark", "note", [⟨"it's", "string"⟩, ⟨"it\\'s", "string"⟩]⟩,
    ⟨"note", "", [⟨"by", "name"⟩]⟩]
  actions := [⟨"say", "remark", ""⟩]
  tables := []
  variants := []

/-- The graph of that contract. -/
def remarksGraph : Graph :=
  let author : Field := ⟨"by", ⟨.primitive .name, false, false⟩, "note"⟩
  let quote : Field := ⟨"it's", ⟨.primitive .string, false, false⟩, "remark"⟩
  let escaped : Field := ⟨"it\\'s", ⟨.primitive .string, false, false⟩, "remark"⟩
  { version := none
    aliases := []
    structs := [⟨"remark", some "note", [quote, escaped], [author, quote, escaped]⟩,
      ⟨"note", none, [author], [author]⟩]
    actions := [⟨"say", "remark", [author, quote, escaped], ""⟩]
    tables := []
    variants := []
    index := [("remark", .struct 0), ("note", .struct 1)] }

theorem remarks_keysApart : Abi.resolve remarks = .ok remarksGraph ∧
    (Listing.ofGraph remarksGraph "Dao").bundles.map (fun o => o.entries.map Entry.name) =
      [["by", "'it\\'s'", "'it\\\\\\'s'"]] ∧
    KeysApart remarksGraph := by
  have hresolve : Abi.resolve remarks = .ok remarksGraph :=
    Outcome.eq_ok_of_toOption (by decide +kernel)
  exact ⟨hresolve, by decide, keysApart_of_resolve hresolve⟩

end ContractBinding.Binding
