import ContractBinding.Binding.Mapping
import Mathlib.Data.List.Basic

/-!
# Structs that are written in place

A struct that is nothing but a key and a value is written in place, unless one of its members names
such a struct itself. So no type that is written in place leads to another one, and writing a type
comes to an end, however the structs of a graph refer to each other.
-/

namespace ContractBinding.Binding

open Abi (Field Graph Struct)

/-- How deep pairs stand inside of each other in a type. -/
def HostType.pairDepth : HostType → Nat
  | .builtin _ => 0
  | .array element => element.pairDepth
  | .pair key value => max key.pairDepth value.pairDepth + 1
  | .exported _ => 0

/-- A struct has the form of a pair. -/
structure HasPairForm (s : Struct) : Prop where
  name : "pair_".toList <+: s.name.toList
  base : s.base = none
  fields : s.fields.map Field.name = ["key", "value"]

/-- A pair has two fields. -/
theorem HasPairForm.exists_fields {s : Struct} (h : HasPairForm s) :
    ∃ k v : Field, s.fields = [k, v] := by
  have htwo := congrArg List.length h.fields
  rw [List.length_map] at htwo
  exact List.length_eq_two.1 htwo

/-- A struct has the form of a pair, and its members name no struct that has it. -/
structure InPlace (g : Graph) (s : Struct) : Prop where
  form : HasPairForm s
  members : ∀ f ∈ s.fields, ∀ name, f.type.expr.namedRef? = some name →
    ∀ t ∈ g.structs, HasPairForm t → t.name ≠ name

namespace Mapping

variable {g : Graph} {contract : String} {m : Mapping} {s : Struct} {name : String}
  {key value expr : TypeExpr}

/-- A struct has the form of a pair exactly where it is a candidate. -/
theorem candidate?_eq_some_iff {c : String × TypeExpr × TypeExpr} : candidate? s = some c ↔
    HasPairForm s ∧ ∃ k v : Field, s.fields = [k, v] ∧ c = (s.name, k.type.expr, v.type.expr) := by
  unfold candidate?
  constructor
  · intro h
    split at h
    · next k v hbase hfields =>
      split at h
      · next hnames =>
        refine ⟨⟨List.isPrefixOf_iff_prefix.1 hnames.1, hbase, ?_⟩, k, v, hfields,
          (Option.some.inj h).symm⟩
        rw [hfields, List.map_cons, List.map_cons, hnames.2.1, hnames.2.2, List.map_nil]
      · simp at h
    · simp at h
  · rintro ⟨⟨hname, hbase, hnames⟩, k, v, hfields, rfl⟩
    rw [hfields] at hnames
    obtain ⟨hk, hv⟩ : k.name = "key" ∧ v.name = "value" := by simpa using hnames
    rw [hbase, hfields]
    dsimp only
    rw [if_pos ⟨List.isPrefixOf_iff_prefix.2 hname, hk, hv⟩]

/-- The candidates have the names of the structs that have the form of a pair. -/
theorem exists_candidate_iff : (∃ c ∈ g.structs.filterMap candidate?, c.1 = name) ↔
    ∃ t ∈ g.structs, HasPairForm t ∧ t.name = name := by
  simp only [List.mem_filterMap]
  constructor
  · rintro ⟨c, ⟨t, ht, hc⟩, rfl⟩
    obtain ⟨hform, k, v, -, rfl⟩ := candidate?_eq_some_iff.1 hc
    exact ⟨t, ht, hform, rfl⟩
  · rintro ⟨t, ht, hform, rfl⟩
    obtain ⟨k, v, hfields⟩ := hform.exists_fields
    exact ⟨_, ⟨t, ht, candidate?_eq_some_iff.2 ⟨hform, k, v, hfields, rfl⟩⟩, rfl⟩

/-- An expression refers to no candidate where no struct below its arrays has the form of a pair. -/
theorem refersTo_candidates_iff : refersTo (g.structs.filterMap candidate?) expr = false ↔
    ∀ name, expr.namedRef? = some name → ∀ t ∈ g.structs, HasPairForm t → t.name ≠ name := by
  unfold refersTo
  cases expr.namedRef? with
  | none => simp
  | some below =>
    have hany : ((g.structs.filterMap candidate?).any fun c => c.1 = below) = true ↔
        ∃ t ∈ g.structs, HasPairForm t ∧ t.name = below := by
      rw [← exists_candidate_iff, List.any_eq_true]
      simp only [decide_eq_true_eq]
    rw [Option.any_some, ← Bool.not_eq_true, hany]
    grind

/-- The structs that a graph writes in place, with the types of their members. -/
theorem mem_pairs_iff : (name, key, value) ∈ (ofGraph g contract).pairs ↔
    ∃ s ∈ g.structs, InPlace g s ∧ s.name = name ∧
      ∃ k v : Field, s.fields = [k, v] ∧ k.type.expr = key ∧ v.type.expr = value := by
  unfold ofGraph pairsOf
  simp only [List.mem_reverse, List.mem_filter, Bool.and_eq_true, Bool.not_eq_true',
    refersTo_candidates_iff, List.mem_filterMap, candidate?_eq_some_iff]
  constructor
  · rintro ⟨⟨s, hs, hform, k, v, hfields, hc⟩, hkey, hvalue⟩
    cases hc
    refine ⟨s, hs, ⟨hform, ?_⟩, rfl, k, v, hfields, rfl, rfl⟩
    simpa [hfields] using ⟨hkey, hvalue⟩
  · rintro ⟨s, hs, ⟨hform, hmembers⟩, rfl, k, v, hfields, rfl, rfl⟩
    refine ⟨⟨s, hs, hform, k, v, hfields, rfl⟩, ?_, ?_⟩
    · exact hmembers k (by simp [hfields])
    · exact hmembers v (by simp [hfields])

/-- The members that a name is written with are those of an entry. -/
theorem mem_pairs_of_lookup (h : m.pairs.lookup name = some (key, value)) :
    (name, key, value) ∈ m.pairs := by
  obtain ⟨front, back, hpairs, -⟩ := List.lookup_eq_some_iff.1 h
  rw [hpairs]
  exact List.mem_append_right _ (List.mem_cons_self ..)

/-- A name is written in place exactly where a struct of that name is. -/
theorem isPair_iff : (ofGraph g contract).isPair name = true ↔
    ∃ s ∈ g.structs, InPlace g s ∧ s.name = name := by
  rw [isPair, List.lookup_isSome_iff]
  constructor
  · rintro ⟨⟨other, key, value⟩, hpair, hname⟩
    obtain ⟨s, hs, hin, rfl, -⟩ := mem_pairs_iff.1 hpair
    exact ⟨s, hs, hin, (beq_iff_eq.1 hname).symm⟩
  · rintro ⟨s, hs, hin, rfl⟩
    obtain ⟨k, v, hfields⟩ := hin.form.exists_fields
    exact ⟨_, mem_pairs_iff.2 ⟨s, hs, hin, rfl, k, v, hfields, rfl, rfl⟩, beq_self_eq_true _⟩

/-- No struct that is written in place contains another one. -/
def Flat (m : Mapping) : Prop :=
  ∀ pair ∈ m.pairs, ∀ name ∈ pair.2.1.namedRef?.toList ++ pair.2.2.namedRef?.toList,
    m.pairs.lookup name = none

/-- The structs that a graph writes in place contain no other. -/
theorem flat_ofGraph (g : Graph) (contract : String) : (ofGraph g contract).Flat := by
  rintro ⟨name, key, value⟩ hpair inner hinner
  obtain ⟨s, -, hs, -, k, v, hfields, rfl, rfl⟩ := mem_pairs_iff.1 hpair
  refine List.lookup_eq_none_iff.2 fun other hother => bne_iff_ne.2 ?_
  obtain ⟨t, ht, hin, hname, -⟩ := mem_pairs_iff.1 hother
  obtain ⟨f, hf, hbelow⟩ : ∃ f ∈ s.fields, f.type.expr.namedRef? = some inner := by
    simpa [hfields] using hinner
  rw [← hname]
  exact (hs.members f hf inner hbelow t ht hin.form).symm

/-- A member of a struct that is written in place names no other one. -/
theorem Flat.lookup_eq_none (hm : m.Flat) (h : m.pairs.lookup name = some (key, value))
    {member : TypeExpr} (hmember : member = key ∨ member = value) {inner : String}
    (hinner : member.namedRef? = some inner) : m.pairs.lookup inner = none := by
  refine hm _ (mem_pairs_of_lookup h) inner (List.mem_append.2 ?_)
  rcases hmember with rfl | rfl
  · exact .inl (Option.mem_toList.2 hinner)
  · exact .inr (Option.mem_toList.2 hinner)

/-- A struct that is not written in place is written by its name. -/
theorem mapNamed_of_lookup (h : m.pairs.lookup name = none) (depth : Nat) :
    m.mapNamed depth name = .exported (m.exportedName name) := by
  cases depth with
  | zero => rfl
  | succ depth => rw [mapNamed, h]

/-- The type of an expression is that of the name below its arrays, with the arrays around it. -/
theorem mapWith_congr {declared other : String → HostType}
    (h : ∀ name, expr.namedRef? = some name → declared name = other name) :
    mapWith declared expr = mapWith other expr := by
  induction expr with
  | primitive p => rfl
  | array element ih => exact congrArg HostType.array (ih h)
  | named name => exact h name rfl

/-- A declared name is written as it is looked up: a struct in place with the types of its members,
all else by its exported name. The depth to which pairs may be opened does not matter. -/
theorem map_named (hm : m.Flat) (name : String) : m.map (.named name) =
    match m.pairs.lookup name with
    | some (key, value) => .pair (m.map key) (m.map value)
    | none => .exported (m.exportedName name) := by
  cases hlookup : m.pairs.lookup name with
  | none => exact mapNamed_of_lookup hlookup _
  | some members =>
    obtain ⟨key, value⟩ := members
    have hmember {member : TypeExpr} (h : member = key ∨ member = value) (depth : Nat) :
        mapWith (m.mapNamed depth) member = m.map member := by
      refine mapWith_congr fun inner hinner => ?_
      have hnone := hm.lookup_eq_none hlookup h hinner
      rw [mapNamed_of_lookup hnone, mapNamed_of_lookup hnone]
    -- There is a pair, so at least one may be opened.
    obtain ⟨depth, hdepth⟩ :=
      Nat.exists_eq_add_one.2 (List.length_pos_of_mem (mem_pairs_of_lookup hlookup))
    show m.mapNamed m.pairs.length name = _
    rw [hdepth, mapNamed, hlookup]
    dsimp only
    rw [hmember (.inl rfl), hmember (.inr rfl)]

/-- The types that are asked for to write a type: the element of an array, and the members of a
struct that is written in place. -/
inductive Asks (m : Mapping) : TypeExpr → TypeExpr → Prop where
  | element {element : TypeExpr} : Asks m element (.array element)
  | member {name : String} {key value member : TypeExpr}
    (h : m.pairs.lookup name = some (key, value)) (hmember : member = key ∨ member = value) :
    Asks m member (.named name)

/-- Writing a type ends where writing the name below its arrays ends. -/
theorem acc_asks_of_named (h : ∀ name, expr.namedRef? = some name → Acc m.Asks (.named name)) :
    Acc m.Asks expr := by
  induction expr with
  | primitive p => exact .intro _ fun _ hasked => nomatch hasked
  | array element ih =>
    refine .intro _ fun asked hasked => ?_
    cases hasked with
    | element => exact ih h
  | named name => exact h name rfl

/-- Writing types ends where no struct that is written in place contains another one. -/
theorem wellFounded_asks (hm : m.Flat) : WellFounded m.Asks := by
  have hexported {name : String} (hnone : m.pairs.lookup name = none) :
      Acc m.Asks (.named name) := by
    refine .intro _ fun asked hasked => ?_
    cases hasked with
    | member h _ => simp [hnone] at h
  refine ⟨fun expr => acc_asks_of_named fun name _ => .intro _ fun asked hasked => ?_⟩
  cases hasked with
  | member h hmember =>
    -- Below a member there are only names that are not written in place.
    exact acc_asks_of_named fun inner hinner => hexported (hm.lookup_eq_none h hmember hinner)

/-- Pairs stand no deeper in the type of an expression than in that of the name below its arrays. -/
theorem pairDepth_map_le {depth : Nat}
    (h : ∀ name, expr.namedRef? = some name → (m.map (.named name)).pairDepth ≤ depth) :
    (m.map expr).pairDepth ≤ depth := by
  induction expr with
  | primitive p => exact Nat.zero_le _
  | array element ih => exact ih h
  | named name => exact h name rfl

/-- No pair stands inside of another one. -/
theorem pairDepth_map_le_one (hm : m.Flat) (expr : TypeExpr) : (m.map expr).pairDepth ≤ 1 := by
  refine pairDepth_map_le fun name _ => ?_
  rw [map_named hm]
  cases hlookup : m.pairs.lookup name with
  | none => exact Nat.zero_le _
  | some members =>
    obtain ⟨key, value⟩ := members
    have hmember {member : TypeExpr} (h : member = key ∨ member = value) :
        (m.map member).pairDepth ≤ 0 := by
      refine pairDepth_map_le fun inner hinner => ?_
      rw [map_named hm, hm.lookup_eq_none hlookup h hinner]
      exact Nat.le_refl 0
    exact Nat.succ_le_succ (Nat.max_le.2 ⟨hmember (.inl rfl), hmember (.inr rfl)⟩)

/-- A name is written as a pair exactly where it is that of a struct that is written in place. -/
theorem exists_map_eq_pair_iff (hm : m.Flat) :
    (∃ key value, m.map (.named name) = .pair key value) ↔ m.isPair name = true := by
  rw [map_named hm, isPair]
  cases m.pairs.lookup name with
  | none => simp
  | some members => simp

/-- Types are written by rules, each of which asks for the types of other expressions, and every
type comes to an end. A struct is written in place exactly where it has the form of a pair and its
members name no struct of that form, and no pair stands inside of another one. -/
structure WritesPairs (m : Mapping) (g : Graph) : Prop where
  /-- No expression asks for others without end. -/
  founded : WellFounded m.Asks
  primitive : ∀ p, m.map (.primitive p) = .builtin p
  array : ∀ element, m.map (.array element) = .array (m.map element)
  named : ∀ name, m.map (.named name) =
    match m.pairs.lookup name with
    | some (key, value) => .pair (m.map key) (m.map value)
    | none => .exported (m.exportedName name)
  shallow : ∀ expr, (m.map expr).pairDepth ≤ 1
  inPlace : ∀ name, (∃ key value, m.map (.named name) = .pair key value) ↔
    ∃ s ∈ g.structs, InPlace g s ∧ s.name = name
  /-- What is opened are the members of such a struct, its key first. -/
  members : ∀ name key value, m.pairs.lookup name = some (key, value) →
    ∃ s ∈ g.structs, InPlace g s ∧ s.name = name ∧
      ∃ k v : Field, s.fields = [k, v] ∧ k.type.expr = key ∧ v.type.expr = value

/-- The mapping of a graph writes pairs so, whatever structs the graph has. -/
theorem writesPairs_ofGraph (g : Graph) (contract : String) :
    (ofGraph g contract).WritesPairs g where
  founded := wellFounded_asks (flat_ofGraph g contract)
  primitive _ := rfl
  array _ := rfl
  named := map_named (flat_ofGraph g contract)
  shallow := pairDepth_map_le_one (flat_ofGraph g contract)
  inPlace _ := (exists_map_eq_pair_iff (flat_ofGraph g contract)).trans isPair_iff
  members _ _ _ h := mem_pairs_iff.1 (mem_pairs_of_lookup h)

end Mapping

end ContractBinding.Binding
