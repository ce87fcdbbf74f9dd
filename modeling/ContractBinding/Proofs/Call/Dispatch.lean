import ContractBinding.Call.Method
import ContractBinding.Proofs.Abi.Faithful
import ContractBinding.Proofs.Binding.Emission
import ContractBinding.Proofs.Name.Casing

/-!
# What a method name stands for

A method name is looked for among the actions, then among the object methods, then among the
accessors of tables. It is found exactly where the generated code has a member of that name, and it
stands for an entry that the member was generated from.
-/

namespace ContractBinding.Call

open Abi (Action Graph Table)
open Binding (Header Listing)
open Binding.Listing (Accessor Signature)

variable {doc : Abi.Document} {g : Graph} {contract name : String}

/-- No entry is found exactly where none has the name. -/
theorem lastNamed?_eq_none_iff {α : Type} {generated : α → String} {entries : List α} :
    lastNamed? generated name entries = none ↔ name ∉ entries.map generated := by
  rw [lastNamed?, Abi.find?_name_eq_none_iff, List.map_reverse, List.mem_reverse]

/-- An entry that is found is one of that name. -/
theorem of_lastNamed? {α : Type} {generated : α → String} {entries : List α} {entry : α}
    (h : lastNamed? generated name entries = some entry) :
    entry ∈ entries ∧ generated entry = name :=
  ⟨List.mem_reverse.1 (List.mem_of_find?_eq_some h), by simpa using List.find?_some h⟩

/-- What becomes of a method name: an action goes before an object method, and an object method
before an accessor. -/
inductive Dispatched (g : Graph) (name : String) : Except CallFault Method → Prop where
  | action {a : Action} (ha : a ∈ g.actions) (hn : a.name = name) :
    Dispatched g name (.ok (.action a))
  | objectParams {a : Action} (ha : a ∈ g.actions) (hn : Name.objectMethod a.name = name)
    (hactions : name ∉ g.actions.map Action.name) : Dispatched g name (.ok (.objectParams a))
  | table {t : Table} (ht : t ∈ g.tables) (hn : Name.tableAccessor t.name = name)
    (hactions : name ∉ g.actions.map Action.name)
    (hobjects : name ∉ g.actions.map fun a => Name.objectMethod a.name) :
    Dispatched g name (.ok (.table t))
  | unknown (hactions : name ∉ g.actions.map Action.name)
    (hobjects : name ∉ g.actions.map fun a => Name.objectMethod a.name)
    (htables : name ∉ g.tables.map fun t => Name.tableAccessor t.name) :
    Dispatched g name (.error (.reference .method name))

/-- Every method name is dispatched. -/
theorem dispatched_method? (g : Graph) (name : String) : Dispatched g name (method? g name) := by
  unfold method?
  cases haction : lastNamed? Action.name name g.actions with
  | some a =>
    obtain ⟨ha, hn⟩ := of_lastNamed? haction
    exact .action ha hn
  | none =>
    rw [lastNamed?_eq_none_iff] at haction
    dsimp only
    cases hobject : lastNamed? (fun a => Name.objectMethod a.name) name g.actions with
    | some a =>
      obtain ⟨ha, hn⟩ := of_lastNamed? hobject
      exact .objectParams ha hn haction
    | none =>
      rw [lastNamed?_eq_none_iff] at hobject
      dsimp only
      cases htable : lastNamed? (fun t => Name.tableAccessor t.name) name g.tables with
      | some t =>
        obtain ⟨ht, hn⟩ := of_lastNamed? htable
        exact .table ht hn haction hobject
      | none =>
        rw [lastNamed?_eq_none_iff] at htable
        exact .unknown haction hobject htable

/-- The entry that a method stands for is one of the graph and was given the name. -/
def Method.Named (g : Graph) (name : String) : Method → Prop
  | .action a => a ∈ g.actions ∧ a.name = name
  | .objectParams a => a ∈ g.actions ∧ Name.objectMethod a.name = name
  | .table t => t ∈ g.tables ∧ Name.tableAccessor t.name = name

/-- A name leads to an entry that it was given to. -/
theorem named_of_method? {method : Method} (h : method? g name = .ok method) :
    method.Named g name := by
  have hd := dispatched_method? g name
  rw [h] at hd
  cases hd with
  | action ha hn => exact ⟨ha, hn⟩
  | objectParams ha hn _ => exact ⟨ha, hn⟩
  | table ht hn _ _ => exact ⟨ht, hn⟩

/-- A name is that of an action. -/
theorem exists_action_iff : (∃ a, method? g name = .ok (.action a)) ↔
    name ∈ g.actions.map Action.name := by
  have hd := dispatched_method? g name
  generalize method? g name = outcome at hd
  cases hd with
  | action ha hn => exact iff_of_true ⟨_, rfl⟩ (List.mem_map.2 ⟨_, ha, hn⟩)
  | objectParams _ _ hactions => exact iff_of_false (by simp) hactions
  | table _ _ hactions _ => exact iff_of_false (by simp) hactions
  | unknown hactions _ _ => exact iff_of_false (by simp) hactions

/-- A name is that of an object method and of no action. -/
theorem exists_objectParams_iff : (∃ a, method? g name = .ok (.objectParams a)) ↔
    name ∈ g.actions.map (fun a => Name.objectMethod a.name) ∧
      name ∉ g.actions.map Action.name := by
  have hd := dispatched_method? g name
  generalize method? g name = outcome at hd
  cases hd with
  | action ha hn =>
    exact iff_of_false (by simp) fun h => h.2 (List.mem_map.2 ⟨_, ha, hn⟩)
  | objectParams ha hn hactions =>
    exact iff_of_true ⟨_, rfl⟩ ⟨List.mem_map.2 ⟨_, ha, hn⟩, hactions⟩
  | table _ _ _ hobjects => exact iff_of_false (by simp) fun h => hobjects h.1
  | unknown _ hobjects _ => exact iff_of_false (by simp) fun h => hobjects h.1

/-- A name is that of an accessor, and neither of an object method nor of an action. -/
theorem exists_table_iff : (∃ t, method? g name = .ok (.table t)) ↔
    name ∈ g.tables.map (fun t => Name.tableAccessor t.name) ∧
      name ∉ g.actions.map (fun a => Name.objectMethod a.name) ∧
        name ∉ g.actions.map Action.name := by
  have hd := dispatched_method? g name
  generalize method? g name = outcome at hd
  cases hd with
  | action ha hn =>
    exact iff_of_false (by simp) fun h => h.2.2 (List.mem_map.2 ⟨_, ha, hn⟩)
  | objectParams ha hn _ =>
    exact iff_of_false (by simp) fun h => h.2.1 (List.mem_map.2 ⟨_, ha, hn⟩)
  | table ht hn hactions hobjects =>
    exact iff_of_true ⟨_, rfl⟩ ⟨List.mem_map.2 ⟨_, ht, hn⟩, hobjects, hactions⟩
  | unknown _ _ htables => exact iff_of_false (by simp) fun h => htables h.1

/-- A name is refused where no entry has it. -/
theorem method?_eq_error_iff : method? g name = .error (.reference .method name) ↔
    name ∉ g.actions.map Action.name ∧
      name ∉ g.actions.map (fun a => Name.objectMethod a.name) ∧
        name ∉ g.tables.map (fun t => Name.tableAccessor t.name) := by
  have hd := dispatched_method? g name
  generalize method? g name = outcome at hd
  cases hd with
  | action ha hn => exact iff_of_false (by simp) fun h => h.1 (List.mem_map.2 ⟨_, ha, hn⟩)
  | objectParams ha hn _ =>
    exact iff_of_false (by simp) fun h => h.2.1 (List.mem_map.2 ⟨_, ha, hn⟩)
  | table ht hn _ _ => exact iff_of_false (by simp) fun h => h.2.2 (List.mem_map.2 ⟨_, ht, hn⟩)
  | unknown hactions hobjects htables => exact iff_of_true rfl ⟨hactions, hobjects, htables⟩

/-- A name that is refused is called unknown. -/
theorem exists_ok_or_error (g : Graph) (name : String) : (∃ method, method? g name = .ok method) ∨
    method? g name = .error (.reference .method name) := by
  have hd := dispatched_method? g name
  generalize method? g name = outcome at hd
  cases hd with
  | unknown _ _ _ => exact .inr rfl
  | _ => exact .inl ⟨_, rfl⟩

/-- A method name stands for something exactly where the code of the graph writes a member of that
name: for an action, else for the object method of one, else for a table. A member is told by its
place in the listing, since a name with a line break in it may look like two members. -/
structure Recognised (g : Graph) (contract name : String) : Prop where
  ok_iff : (∃ method, method? g name = .ok method) ↔ name ∈ (Listing.ofGraph g contract).members
  error_iff : method? g name = .error (.reference .method name) ↔
    name ∉ (Listing.ofGraph g contract).members
  named : ∀ method, method? g name = .ok method → method.Named g name
  action_iff : (∃ a, method? g name = .ok (.action a)) ↔
    name ∈ (Listing.ofGraph g contract).methods.map Signature.name
  objectParams_iff : (∃ a, method? g name = .ok (.objectParams a)) ↔
    name ∈ (Listing.ofGraph g contract).bundles.map Signature.name ∧
      name ∉ (Listing.ofGraph g contract).methods.map Signature.name
  table_iff : (∃ t, method? g name = .ok (.table t)) ↔
    name ∈ (Listing.ofGraph g contract).accessors.map Accessor.name ∧
      name ∉ (Listing.ofGraph g contract).bundles.map Signature.name ∧
        name ∉ (Listing.ofGraph g contract).methods.map Signature.name

/-- The names that stand for something are those of the members in the text of the code, whose
interface of the contract has a line for each of them and none besides. -/
theorem recognised_of_emit {header : Header} {text : String}
    (he : Binding.emit g contract header = .ok text) (name : String) :
    (Listing.ofGraph g contract).WrittenIn header.text text ∧ Recognised g contract name := by
  refine ⟨Binding.writtenIn_of_emit he, ?_⟩
  have herror : method? g name = .error (.reference .method name) ↔
      name ∉ (Listing.ofGraph g contract).members := by
    rw [method?_eq_error_iff, Listing.members_ofGraph, List.mem_append, List.mem_append, not_or,
      not_or, and_assoc]
  constructor
  case ok_iff =>
    rw [← not_iff_not, ← herror]
    constructor
    · exact (exists_ok_or_error g name).resolve_left
    · rintro h ⟨method, hm⟩
      simp [h] at hm
  case error_iff => exact herror
  case named => exact fun _ => named_of_method?
  case action_iff => rw [exists_action_iff, Listing.map_name_methods]
  case objectParams_iff =>
    rw [exists_objectParams_iff, Listing.map_name_bundles, Listing.map_name_methods]
  case table_iff =>
    rw [exists_table_iff, Listing.map_name_accessors, Listing.map_name_bundles,
      Listing.map_name_methods]

theorem joinO_recognised :
    ∃ text, Binding.emit Abi.membershipGraph "Dao" ⟨Binding.defaultRuntimeModule, none⟩ = .ok text ∧
      (Listing.ofGraph Abi.membershipGraph "Dao").WrittenIn
        (Header.text ⟨Binding.defaultRuntimeModule, none⟩) text ∧
      Recognised Abi.membershipGraph "Dao" "joinO" :=
  ⟨_, Binding.emit_membership, recognised_of_emit Binding.emit_membership "joinO"⟩

/-- Every entry is reached under the names that it was given, unless another entry goes before it:
an action that bears the name of an object method or of an accessor, or a table of the same
accessor. -/
structure Reached (g : Graph) : Prop where
  action : ∀ a ∈ g.actions, method? g a.name = .ok (.action a)
  objectParams : ∀ a ∈ g.actions, Name.objectMethod a.name ∉ g.actions.map Action.name →
    method? g (Name.objectMethod a.name) = .ok (.objectParams a)
  table : ∀ t ∈ g.tables, Name.tableAccessor t.name ∉ g.actions.map Action.name →
    (∀ other ∈ g.tables, Name.tableAccessor other.name = Name.tableAccessor t.name → other = t) →
      method? g (Name.tableAccessor t.name) = .ok (.table t)

/-- The entries of a resolved graph are reached. -/
theorem reached_of_resolve (hg : Abi.resolve doc = .ok g) : Reached g := by
  have hd := (Abi.resolve_eq_ok_iff.1 hg).actions_distinct
  constructor
  case action =>
    intro a ha
    obtain ⟨other, h⟩ := exists_action_iff.2 (List.mem_map_of_mem ha)
    obtain ⟨hother, hn⟩ := named_of_method? h
    rw [h, List.inj_on_of_nodup_map hd hother ha hn]
  case objectParams =>
    intro a ha hactions
    obtain ⟨other, h⟩ := exists_objectParams_iff.2 ⟨List.mem_map.2 ⟨a, ha, rfl⟩, hactions⟩
    obtain ⟨hother, hn⟩ := named_of_method? h
    rw [h, List.inj_on_of_nodup_map hd hother ha (Name.objectMethod_injective hn)]
  case table =>
    intro t ht hactions hone
    -- An accessor is never an object method, so only an action can go before it.
    have hobjects : Name.tableAccessor t.name ∉
        g.actions.map fun a => Name.objectMethod a.name := by
      rw [List.mem_map]
      rintro ⟨a, -, hn⟩
      exact Name.tableAccessor_ne_objectMethod _ _ hn.symm
    obtain ⟨other, h⟩ := exists_table_iff.2 ⟨List.mem_map.2 ⟨t, ht, rfl⟩, hobjects, hactions⟩
    obtain ⟨hother, hn⟩ := named_of_method? h
    rw [h, hone other hother hn]

theorem membership_reached :
    Abi.resolve Abi.membership = .ok Abi.membershipGraph ∧ Reached Abi.membershipGraph :=
  ⟨Abi.resolve_membership, reached_of_resolve Abi.resolve_membership⟩

/-- Every entry is reached under all names that it was given. -/
structure AllReached (g : Graph) : Prop where
  action : ∀ a ∈ g.actions, method? g a.name = .ok (.action a)
  objectParams : ∀ a ∈ g.actions, method? g (Name.objectMethod a.name) = .ok (.objectParams a)
  table : ∀ t ∈ g.tables, method? g (Name.tableAccessor t.name) = .ok (.table t)

/-- A contract in which names are given twice: `voteO` to an action and to the object method of
another, `ballotsTable` to an action and to an accessor, and `seatATable` to two accessors. -/
def crossed : Abi.Document where
  version := none
  aliases := []
  structs := [⟨"row", "", []⟩]
  actions := [⟨"vote", "row", ""⟩, ⟨"voteO", "row", ""⟩, ⟨"ballotsTable", "row", ""⟩]
  tables := [⟨"ballots", "row", "i64", [], []⟩, ⟨"seat_a", "row", "i64", [], []⟩,
    ⟨"seat.a", "row", "i64", [], []⟩]
  variants := []

/-- The graph of that contract. -/
def crossedGraph : Graph where
  version := none
  aliases := []
  structs := [⟨"row", none, [], []⟩]
  actions := [⟨"vote", "row", [], ""⟩, ⟨"voteO", "row", [], ""⟩, ⟨"ballotsTable", "row", [], ""⟩]
  tables := [⟨"ballots", "row", "i64", [], []⟩, ⟨"seat_a", "row", "i64", [], []⟩,
    ⟨"seat.a", "row", "i64", [], []⟩]
  variants := []
  index := [("row", .struct 0)]

/-- In that contract no kind of generated name reaches all of its entries. -/
theorem crossed_not_allReached :
    Abi.resolve crossed = .ok crossedGraph ∧ ¬ AllReached crossedGraph ∧
      method? crossedGraph (Name.objectMethod "vote") = .ok (.action ⟨"voteO", "row", [], ""⟩) ∧
      method? crossedGraph (Name.tableAccessor "ballots") =
        .ok (.action ⟨"ballotsTable", "row", [], ""⟩) ∧
      method? crossedGraph (Name.tableAccessor "seat_a") =
        .ok (.table ⟨"seat.a", "row", "i64", [], []⟩) := by
  have hvote : method? crossedGraph (Name.objectMethod "vote") =
      .ok (.action ⟨"voteO", "row", [], ""⟩) := by rfl
  refine ⟨Outcome.eq_ok_of_toOption (by decide +kernel), ?_, hvote, by rfl, by rfl⟩
  intro h
  have hobject := h.objectParams ⟨"vote", "row", [], ""⟩ (by decide)
  simp [hvote] at hobject

end ContractBinding.Call
