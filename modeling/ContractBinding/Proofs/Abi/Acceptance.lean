import ContractBinding.Proofs.Abi.Resolution

/-!
# Accepted documents

A document resolves exactly when it is well formed, and the walks that resolving takes along
aliases and along bases end on every document, also where the links of one go round.
-/

namespace ContractBinding.Abi

open Relation

variable {doc : Document} {g : Graph}

/-- A document that has resolved is well formed. -/
theorem Resolution.wellFormed (h : Resolution doc g) : doc.WellFormed := by
  obtain ⟨hactionsPresent, hactionsDistinct, -⟩ := checkUnique_eq_ok_iff.1 h.actionNames
  obtain ⟨htablesPresent, htablesDistinct, -⟩ := checkUnique_eq_ok_iff.1 h.tableNames
  have hvariants := Document.exists_resolveVariants_iff.1 ⟨_, h.variants⟩
  obtain ⟨hfields, hbases⟩ := (exists_resolveStructs_iff h.distinct).1 ⟨_, h.structs⟩
  constructor
  case typeNames_present => exact h.present
  case typeNames_distinct => exact h.distinct
  case actionNames_present => exact fun a ha => hactionsPresent a.name (List.mem_map_of_mem ha)
  case actionNames_distinct => exact hactionsDistinct
  case tableNames_present => exact fun t ht => htablesPresent t.name (List.mem_map_of_mem ht)
  case tableNames_distinct => exact htablesDistinct
  case aliases_denote => exact Document.exists_resolveAliases_iff.1 ⟨_, h.aliases⟩
  case branches_denote => exact fun v hv => (hvariants v hv).2
  case fields_denote => exact hfields
  case aliases_acyclic => exact linkIn_eq_aliasLink h.aliases ▸ h.acyclic
  case variants_inhabited => exact fun v hv => (hvariants v hv).1
  case bases_declared => exact hbases.declared
  case bases_acyclic => exact hbases.acyclic
  case fields_distinct => exact hbases.fields_distinct
  case actions_typed => exact h.exists_resolveActions_iff.1 ⟨_, h.actions⟩
  case tables_typed => exact h.exists_resolveTables_iff.1 ⟨_, h.tables⟩

/-- The types of a well-formed document resolve. -/
theorem Document.WellFormed.exists_resolvedTypes (hw : doc.WellFormed) :
    ∃ g, g.version = doc.version ∧ ResolvedTypes doc g := by
  obtain ⟨aliases, haliases⟩ := Document.exists_resolveAliases_iff.2 hw.aliases_denote
  obtain ⟨variants, hvariants⟩ := Document.exists_resolveVariants_iff.2
    fun v hv => ⟨hw.variants_inhabited v hv, hw.branches_denote v hv⟩
  obtain ⟨structs, hstructs⟩ := (exists_resolveStructs_iff hw.typeNames_distinct).2
    ⟨hw.fields_denote, hw.bases_declared, hw.bases_acyclic, hw.fields_distinct⟩
  refine ⟨⟨doc.version, aliases, structs, [], [], variants, doc.declarations⟩, rfl, rfl,
    hw.typeNames_present, hw.typeNames_distinct, haliases, ?_, hvariants, hstructs⟩
  exact linkIn_eq_aliasLink haliases ▸ hw.aliases_acyclic

/-- A well-formed document resolves. -/
theorem Document.WellFormed.exists_resolution (hw : doc.WellFormed) : ∃ g, Resolution doc g := by
  obtain ⟨types, hversion, ht⟩ := hw.exists_resolvedTypes
  have hactionNames : checkUnique .action [] (doc.actions.map ActionDecl.name) = .ok () := by
    refine checkUnique_eq_ok_iff.2 ⟨?_, hw.actionNames_distinct, by simp⟩
    exact List.forall_mem_map.2 hw.actionNames_present
  have htableNames : checkUnique .table [] (doc.tables.map TableDecl.name) = .ok () := by
    refine checkUnique_eq_ok_iff.2 ⟨?_, hw.tableNames_distinct, by simp⟩
    exact List.forall_mem_map.2 hw.tableNames_present
  obtain ⟨actions, hactions⟩ := ht.exists_resolveActions_iff.2 hw.actions_typed
  obtain ⟨tables, htables⟩ := ht.exists_resolveTables_iff.2 hw.tables_typed
  exact ⟨_, ht.resolution hversion hactionNames htableNames hactions htables⟩

/-- Resolving accepts the well-formed documents and refuses all others, and neither walk that it
takes can take steps forever, whatever the links it follows. -/
theorem resolve_accepts_wellFormed (doc : Document) :
    ((∃ g, resolve doc = .ok g) ↔ doc.WellFormed) ∧
      ((∃ problem, resolve doc = .error problem) ↔ ¬ doc.WellFormed) ∧
      (∀ aliases, (WellFounded fun after before => AliasStep aliases before after) ∧
        ∀ before after, AliasStep aliases before after →
          revisited? aliases before.1 before.2 = revisited? aliases after.1 after.2) ∧
      ∀ index own, (WellFounded fun after before => BaseStep index own before after) ∧
        ∀ start before after, BaseStep index own before after →
          ancestors index own start before.1 before.2 =
            (ancestors index own start after.1 after.2).map (after.2 :: ·) := by
  have haccepts : (∃ g, resolve doc = .ok g) ↔ doc.WellFormed := by
    constructor
    · rintro ⟨g, hg⟩
      exact (resolve_eq_ok_iff.1 hg).wellFormed
    · intro hw
      obtain ⟨g, hg⟩ := hw.exists_resolution
      exact ⟨g, resolve_eq_ok_iff.2 hg⟩
  refine ⟨haccepts, ?_, ?_, ?_⟩
  · rw [← haccepts]
    cases resolve doc with
    | ok g => simp
    | error problem => simp
  · intro aliases
    exact ⟨aliasStep_wellFounded aliases, fun _ _ => AliasStep.revisited?_eq⟩
  · intro index own
    exact ⟨baseStep_wellFounded index own, fun _ _ _ => BaseStep.ancestors_eq⟩

end ContractBinding.Abi
