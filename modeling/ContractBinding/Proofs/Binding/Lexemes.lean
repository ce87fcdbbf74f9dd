import ContractBinding.Proofs.Binding.Declarations
import ContractBinding.Proofs.Name.Lexeme
import ContractBinding.Proofs.Name.Parameters

/-!
# The names in generated code

Exported names and parameters of generated code are identifiers, whatever the contract is like. Keys
are names, quoted where they have to be, unless a field has a line break in its name. Methods stand
in the code as they are called, so they are names only where the actions of the contract are named
by identifiers and no accessor starts with a digit.
-/

namespace ContractBinding.Binding

open Abi (Action Document Field Graph Struct)

namespace Interface

/-- The keys of the interfaces of structs and of the objects of arguments. -/
def keys (i : Interface) : List String :=
  i.rows.flatMap (fun r => r.properties.map Property.key) ++
    i.objects.flatMap fun o => o.properties.map Property.key

/-- The parameters of the methods that take the arguments of an action one by one. -/
def parameters (i : Interface) : List String :=
  i.actions.flatMap fun a => a.parameters.map Parameter.name

variable {doc : Document} {g : Graph} {contract : String}

/-- Exported names are identifiers. -/
theorem isIdentifier_of_mem_exports (hc : Name.isIdentifier contract = true) :
    ∀ name ∈ (ofGraph g contract).exports, Name.isIdentifier name = true := by
  rw [exports_ofGraph, Listing.typeExports_ofGraph, List.forall_mem_append, List.forall_mem_map,
    List.forall_mem_singleton]
  exact ⟨fun declared _ => Name.isIdentifier_typeName hc declared, hc⟩

/-- What code mentions are exported names, and so identifiers. -/
theorem isIdentifier_of_mem_mentions (hc : Name.isIdentifier contract = true) :
    ∀ name ∈ (ofGraph g contract).mentions, Name.isIdentifier name = true := by
  intro name hname
  obtain ⟨declared, -, rfl⟩ := exists_of_mem_mentions hname
  exact Name.isIdentifier_typeName hc declared

/-- The parameters of fields have the names that are made for them. -/
theorem map_name_ofFields (m : Mapping) (fields : List Field) :
    (Parameter.ofFields m fields).map Parameter.name =
      Name.parameterNames (fields.map Field.name) :=
  map_parameters (fun _ _ => rfl) fields

/-- Parameters are identifiers. -/
theorem isIdentifier_of_mem_parameters :
    ∀ name ∈ (ofGraph g contract).parameters, Name.isIdentifier name = true := by
  intro name hname
  obtain ⟨method, hmethod, hname⟩ := List.mem_flatMap.1 hname
  obtain ⟨a, -, rfl⟩ := List.mem_map.1 hmethod
  rw [actionOf, map_name_ofFields] at hname
  exact Name.isIdentifier_of_mem_parameterNamesFrom name hname

/-- The keys are those of own fields and of arguments. -/
theorem forall_mem_keys_iff {P : String → Prop} : (∀ key ∈ (ofGraph g contract).keys, P key) ↔
    (∀ s ∈ g.structs, ∀ f ∈ s.ownFields, P (Name.propertyKey f.name)) ∧
      ∀ a ∈ g.actions, ∀ f ∈ a.fields, P (Name.propertyKey f.name) := by
  unfold keys ofGraph
  simp only [List.forall_mem_append, List.forall_mem_flatMap, List.forall_mem_map, rowOf, objectOf]
  rfl

/-- The members are the methods of actions and the accessors of tables. -/
theorem forall_mem_members_iff {P : String → Prop} :
    (∀ name ∈ (ofGraph g contract).members, P name) ↔
      (∀ a ∈ g.actions, P a.name ∧ P (Name.objectMethod a.name)) ∧
        ∀ t ∈ g.tables, P (Name.tableAccessor t.name) := by
  rw [members_ofGraph, Listing.members_ofGraph]
  simp only [List.forall_mem_append, List.forall_mem_map, forall_and, and_assoc]

/-- The names in the code of a document. Exported names and parameters are identifiers; keys and
members are lexemes where the names of the document let them. -/
structure WritesNames (i : Interface) (doc : Document) : Prop where
  exports : ∀ name ∈ i.exports ++ i.mentions, Name.isIdentifier name = true
  parameters : ∀ name ∈ i.parameters, Name.isIdentifier name = true
  /-- Quotes do not help against a line break. -/
  keys : (∀ key ∈ i.keys, Name.isLexeme key = true) ↔
    ∀ s ∈ doc.structs, ∀ f ∈ s.fields, Name.isOneLine f.name = true
  /-- Methods are written without quotes, and accessors without a letter in front. -/
  members : (∀ name ∈ i.members, Name.isLexeme name = true) ↔
    (∀ a ∈ doc.actions, Name.isIdentifier a.name = true) ∧
      ∀ t ∈ doc.tables, Name.startsWithDigit (Name.tableAccessor t.name) = false

end Interface

/-! ### Resolved graphs -/

section Resolved

variable {doc : Document} {g : Graph} {contract : String}

/-- What holds of the names of all own fields of a resolved graph holds of all field names of its
document. -/
theorem forall_ownFields_iff (hg : Abi.ResolvedTypes doc g) {P : String → Prop} :
    (∀ s ∈ g.structs, ∀ f ∈ s.ownFields, P f.name) ↔
      ∀ s ∈ doc.structs, ∀ f ∈ s.fields, P f.name := by
  have hnames := congrArg (fun lists => ∀ names ∈ lists, ∀ name ∈ names, P name)
    hg.map_name_ownFields
  simp only [List.forall_mem_map] at hnames
  exact iff_of_eq hnames

/-- The arguments of an action are own fields of structs of the graph. -/
theorem exists_ownField_of_argument (hg : Abi.Resolution doc g) {a : Action} (ha : a ∈ g.actions)
    {f : Field} (hf : f ∈ a.fields) : ∃ s ∈ g.structs, f ∈ s.ownFields := by
  obtain ⟨s, hs, -, hfields⟩ := hg.actions_typed ha
  obtain ⟨line, hline, -⟩ := hg.exists_lineage hs
  obtain ⟨t, ht, hdeclared, hown⟩ := hg.exists_declaring hs hline (hfields ▸ hf)
  exact ⟨t, (hg.struct?_eq_some_iff.1 hdeclared).1, (hown t ht).2 rfl⟩

/-- The keys of a resolved graph are those of the fields of its document. -/
theorem forall_mem_keys_iff_document (hg : Abi.Resolution doc g) {P : String → Prop} :
    (∀ key ∈ (Interface.ofGraph g contract).keys, P key) ↔
      ∀ s ∈ doc.structs, ∀ f ∈ s.fields, P (Name.propertyKey f.name) := by
  rw [Interface.forall_mem_keys_iff,
    ← forall_ownFields_iff hg.toResolvedTypes (P := fun name => P (Name.propertyKey name))]
  refine and_iff_left_of_imp fun hown a ha f hf => ?_
  obtain ⟨s, hs, hf⟩ := exists_ownField_of_argument hg ha hf
  exact hown s hs f hf

/-- The members of a resolved graph are those of the actions and tables of its document. -/
theorem forall_mem_members_iff_document (hg : Abi.Resolution doc g) {P : String → Prop} :
    (∀ name ∈ (Interface.ofGraph g contract).members, P name) ↔
      (∀ a ∈ doc.actions, P a.name ∧ P (Name.objectMethod a.name)) ∧
        ∀ t ∈ doc.tables, P (Name.tableAccessor t.name) := by
  have hactions := congrArg (fun names => ∀ name ∈ names, P name ∧ P (Name.objectMethod name))
    hg.map_name_actions
  have htables := congrArg (fun names => ∀ name ∈ names, P (Name.tableAccessor name))
    hg.map_name_tables
  simp only [List.forall_mem_map] at hactions htables
  rw [Interface.forall_mem_members_iff, hactions, htables]

/-- The code of a resolved graph writes names so. -/
theorem writesNames_of_emit (hg : Abi.resolve doc = .ok g) {header : Header} {text : String}
    (he : emit g contract header = .ok text) :
    ∃ i, interface g contract = .ok i ∧ i.text header = text ∧
      i.listing.WrittenIn header.text text ∧ i.WritesNames doc := by
  have hr := Abi.resolve_eq_ok_iff.1 hg
  obtain ⟨i, hi, rfl⟩ := emit_eq_ok_iff.1 he
  obtain ⟨hc, -, rfl⟩ := interface_eq_ok_iff.1 hi
  refine ⟨_, hi, rfl, Interface.writtenIn_text _ header, ?_⟩
  constructor
  case exports =>
    exact List.forall_mem_append.2 ⟨Interface.isIdentifier_of_mem_exports hc,
      Interface.isIdentifier_of_mem_mentions hc⟩
  case parameters => exact Interface.isIdentifier_of_mem_parameters
  case keys =>
    rw [forall_mem_keys_iff_document hr]
    simp only [Name.isLexeme_propertyKey]
  case members =>
    rw [forall_mem_members_iff_document hr]
    simp only [Name.isLexeme_methods_iff, Name.isLexeme_tableAccessor, Bool.not_eq_true']

end Resolved

theorem membership_writesNames :
    Abi.resolve Abi.membership = .ok Abi.membershipGraph ∧
      ∃ text, emit Abi.membershipGraph "Dao" ⟨defaultRuntimeModule, none⟩ = .ok text ∧
        ∃ i, interface Abi.membershipGraph "Dao" = .ok i ∧
          i.text ⟨defaultRuntimeModule, none⟩ = text ∧
          i.listing.WrittenIn (Header.text ⟨defaultRuntimeModule, none⟩) text ∧
          i.WritesNames Abi.membership ∧
          (∀ key ∈ i.keys, Name.isLexeme key = true) ∧
          ∀ name ∈ i.members, Name.isLexeme name = true := by
  obtain ⟨i, hi, ht, hwritten, h⟩ := writesNames_of_emit Abi.resolve_membership emit_membership
  exact ⟨Abi.resolve_membership, _, emit_membership, i, hi, ht, hwritten, h, h.keys.2 (by decide),
    h.members.2 (by decide)⟩

/-- A contract whose names are not those of code: a dot in that of its action, a digit at the start
of that of its table, and a line break in that of its field. -/
def guardedVote : Document where
  version := none
  aliases := []
  structs := [⟨"config", "", [⟨"open\nuntil", "time_point_sec"⟩]⟩]
  actions := [⟨"set.config", "config", ""⟩]
  tables := [⟨"2fa", "config", "i64", [], []⟩]
  variants := []

/-- The graph of that contract. -/
def guardedVoteGraph : Graph :=
  let deadline : Field := ⟨"open\nuntil", ⟨.primitive .timePointSec, false, false⟩, "config"⟩
  { version := none
    aliases := []
    structs := [⟨"config", none, [deadline], [deadline]⟩]
    actions := [⟨"set.config", "config", [deadline], ""⟩]
    tables := [⟨"2fa", "config", "i64", [], []⟩]
    variants := []
    index := [("config", .struct 0)] }

/-- The code of that contract has members and keys that are no lexemes. -/
theorem guardedVote_not_lexemes :
    Abi.resolve guardedVote = .ok guardedVoteGraph ∧
      ∃ text i, emit guardedVoteGraph "Dao" ⟨defaultRuntimeModule, none⟩ = .ok text ∧
        interface guardedVoteGraph "Dao" = .ok i ∧ i.text ⟨defaultRuntimeModule, none⟩ = text ∧
        i.listing.WrittenIn (Header.text ⟨defaultRuntimeModule, none⟩) text ∧
        i.members = ["set.config", "set.configO", "2faTable"] ∧
        (¬ ∀ name ∈ i.members, Name.isLexeme name = true) ∧
        i.keys = ["'open\nuntil'", "'open\nuntil'"] ∧
        ¬ ∀ key ∈ i.keys, Name.isLexeme key = true := by
  have hinterface : interface guardedVoteGraph "Dao" =
      .ok (Interface.ofGraph guardedVoteGraph "Dao") :=
    interface_eq_ok_iff.2 ⟨by decide, by rfl, rfl⟩
  exact ⟨Outcome.eq_ok_of_toOption (by decide +kernel), _, _,
    emit_eq_ok_iff.2 ⟨_, hinterface, rfl⟩, hinterface, rfl, Interface.writtenIn_text _ _, by decide,
    by decide, by decide, by decide⟩

end ContractBinding.Binding
