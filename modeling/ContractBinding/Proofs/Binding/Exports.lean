import ContractBinding.Proofs.Binding.Declarations

/-!
# Distinct exports

A document gives its types distinct names, and the code exports them under the cased names behind
the name of the contract. Casing forgets separators and the case of first letters, so distinct names
may be exported as one, and a name without letters and digits is exported as the contract itself.
The exports are distinct exactly where neither happens.
-/

namespace ContractBinding.Binding

open Abi (Alias Document Graph Struct Variant)

variable {doc : Document} {g : Graph} {contract : String}

/-- The exports are the cased names of the types and the empty name, each behind the name of the
contract. -/
theorem exports_ofGraph (g : Graph) (contract : String) :
    (Interface.ofGraph g contract).exports =
      ((g.structs.map Struct.name ++ g.aliases.map Alias.name ++
        g.variants.map Variant.name).map Name.pascalCase ++ [""]).map (contract ++ ·) := by
  rw [Interface.exports_ofGraph, Listing.typeExports_ofGraph]
  simp only [List.map_append, List.map_map, List.map_cons, List.map_nil, String.append_empty]
  rfl

/-- A graph has the types of its document, kind by kind. -/
theorem perm_typeNames (h : Abi.ResolvedTypes doc g) :
    (g.structs.map Struct.name ++ g.aliases.map Alias.name ++
      g.variants.map Variant.name).Perm doc.typeNames := by
  rw [h.map_name_structs, h.map_name_aliases, h.map_name_variants, Document.typeNames]
  exact List.perm_append_comm.append_right _

/-- The exports of a resolved graph are distinct exactly where no two types are cased alike and
none is cased to nothing. -/
theorem exports_nodup_iff (hg : Abi.resolve doc = .ok g) {header : Header} {text : String}
    (he : emit g contract header = .ok text) :
    ∃ i, interface g contract = .ok i ∧ i.text header = text ∧
      i.listing.WrittenIn header.text text ∧
      (i.exports.Nodup ↔ (doc.typeNames.map Name.pascalCase).Nodup ∧
        "" ∉ doc.typeNames.map Name.pascalCase) := by
  obtain ⟨i, hi, rfl⟩ := emit_eq_ok_iff.1 he
  refine ⟨i, hi, rfl, i.writtenIn_text header, ?_⟩
  obtain ⟨-, -, rfl⟩ := interface_eq_ok_iff.1 hi
  have hinjective : Function.Injective (contract ++ ·) :=
    fun _ _ h => (String.append_right_inj contract).1 h
  have hperm := (perm_typeNames (Abi.resolve_eq_ok_iff.1 hg).toResolvedTypes).map Name.pascalCase
  rw [exports_ofGraph, List.nodup_map_iff hinjective, (hperm.append_right [""]).nodup_iff,
    List.nodup_append]
  simp [List.mem_map]

theorem membership_exports_nodup :
    Abi.resolve Abi.membership = .ok Abi.membershipGraph ∧
      ∃ text, emit Abi.membershipGraph "Dao" ⟨defaultRuntimeModule, none⟩ = .ok text ∧
        ∃ i, interface Abi.membershipGraph "Dao" = .ok i ∧
          i.text ⟨defaultRuntimeModule, none⟩ = text ∧
          i.listing.WrittenIn (Header.text ⟨defaultRuntimeModule, none⟩) text ∧
          (i.exports.Nodup ↔ (Abi.membership.typeNames.map Name.pascalCase).Nodup ∧
            "" ∉ Abi.membership.typeNames.map Name.pascalCase) ∧
          (Abi.membership.typeNames.map Name.pascalCase).Nodup ∧
          "" ∉ Abi.membership.typeNames.map Name.pascalCase := by
  obtain ⟨i, hi, ht, hwritten, h⟩ := exports_nodup_iff Abi.resolve_membership emit_membership
  exact ⟨Abi.resolve_membership, _, emit_membership, i, hi, ht, hwritten, h, by decide,
    by decide⟩

/-- A contract with two structs whose names differ in a separator only. -/
def seats : Document where
  version := none
  aliases := []
  structs := [⟨"seat_a", "", [⟨"holder", "name"⟩]⟩, ⟨"seat.a", "", [⟨"open", "bool"⟩]⟩]
  actions := []
  tables := []
  variants := []

/-- The graph of that contract. -/
def seatsGraph : Graph where
  version := none
  aliases := []
  structs := [⟨"seat_a", none, [⟨"holder", ⟨.primitive .name, false, false⟩, "seat_a"⟩],
      [⟨"holder", ⟨.primitive .name, false, false⟩, "seat_a"⟩]⟩,
    ⟨"seat.a", none, [⟨"open", ⟨.primitive .bool, false, false⟩, "seat.a"⟩],
      [⟨"open", ⟨.primitive .bool, false, false⟩, "seat.a"⟩]⟩]
  actions := []
  tables := []
  variants := []
  index := [("seat_a", .struct 0), ("seat.a", .struct 1)]

/-- The code of that contract exports two interfaces under one name. -/
theorem seats_exports_not_nodup :
    Abi.resolve seats = .ok seatsGraph ∧
      ∃ text i, emit seatsGraph "Dao" ⟨defaultRuntimeModule, none⟩ = .ok text ∧
        interface seatsGraph "Dao" = .ok i ∧ i.text ⟨defaultRuntimeModule, none⟩ = text ∧
        i.listing.WrittenIn (Header.text ⟨defaultRuntimeModule, none⟩) text ∧
        i.listing.blocks.map Listing.Block.heading =
          ["export interface DaoSeatA \x7b\n", "export interface DaoSeatA \x7b\n"] ∧
        i.exports = ["DaoSeatA", "DaoSeatA", "Dao"] ∧ ¬ i.exports.Nodup := by
  have hinterface : interface seatsGraph "Dao" = .ok (Interface.ofGraph seatsGraph "Dao") :=
    interface_eq_ok_iff.2 ⟨by decide, by rfl, rfl⟩
  have hexports : (Interface.ofGraph seatsGraph "Dao").exports =
      ["DaoSeatA", "DaoSeatA", "Dao"] := by
    decide
  refine ⟨Outcome.eq_ok_of_toOption (by decide +kernel), _, _,
    emit_eq_ok_iff.2 ⟨_, hinterface, rfl⟩, hinterface, rfl, Interface.writtenIn_text _ _, by decide,
    hexports, ?_⟩
  rw [hexports]
  decide

end ContractBinding.Binding
