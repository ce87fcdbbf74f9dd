import ContractBinding.Proofs.Call.Reduction
import ContractBinding.Proofs.Json.Part
import ContractBinding.Proofs.Table.Reading

/-!
# What refuses a row

A value is refused where it stands or for one of its parts, and so is a row. A page is refused only
for what its rows hold: a value that its type does not have, or a variant tag that no branch has.
-/

namespace ContractBinding

/-- A row holds a value that its type does not have. -/
def CallFault.IsDomain : CallFault → Prop
  | .domain _ _ _ => True
  | _ => False

/-- A row cannot be read. -/
def CallFault.IsMisreading (fault : CallFault) : Prop := fault.IsDomain ∨ fault.IsDiscriminant

namespace Table

open Host (ValuePath)
open Outcome (RefusedBy)

variable {place : ValuePath} {expr element : TypeExpr} {s : Abi.Struct} {v u : Json}
  {entries : List (String × Json)} {fault : CallFault}

/-- What is asked of a value of a built-in type. -/
def expectation : Reinterpretation → Expectation
  | .bool => .flag
  | .timePointSec => .moment
  | .asset => .asset

/-- A value of a built-in type is refused where it stands. -/
theorem readScalar_refusedBy (kind : Reinterpretation) (place : ValuePath) (v : Json) :
    RefusedBy (· = .domain place (expectation kind) v) (readScalar kind place v) := by
  unfold readScalar
  split
  · exact .ok _
  · exact .ok _
  · exact .ok _
  · exact .error rfl
  · split
    · exact .ok _
    · exact .error rfl
  · split
    · exact .ok _
    · exact .error rfl

namespace Coercer

variable {c : Coercer}

/-- A list is refused for one of its items. -/
theorem coerceItems_refusedBy (element : TypeExpr) (position : Nat) (items : List Json) :
    RefusedBy (fun fault => ∃ i u, items[i]? = some u ∧
        c.coerce (place.push (.item (position + i))) element u = .error fault)
      (c.coerceItems place element position items) := by
  induction items generalizing position with
  | nil => exact .ok []
  | cons item rest ih =>
    rw [coerceItems]
    refine .bind (fun fault hitem => ⟨0, item, rfl, hitem⟩) fun _ =>
      .bind (fun fault hrest => ?_) fun _ => .ok _
    obtain ⟨i, u, hu, he⟩ := ih (position + 1) fault hrest
    refine ⟨i + 1, u, hu, ?_⟩
    rwa [Nat.add_assoc, Nat.add_comm 1 i] at he

/-- What stands under a key is refused along the type of a field of this name. -/
theorem coerceEntry_refusedBy (s : Abi.Struct) (key : String) (u : Json) :
    RefusedBy (fun fault => ∃ f ∈ s.fields, f.name = key ∧
        ¬ (f.type.optional = true ∧ u = .null) ∧
        c.coerce (place.push (.field f.name)) f.type.expr u = .error fault)
      (c.coerceEntry place s key u) := by
  unfold coerceEntry
  split
  · exact .ok _
  · next f hf =>
    unfold Abi.Struct.field? at hf
    obtain rfl : f.name = key := by simpa using List.find?_some hf
    split
    · exact .ok _
    · next hn =>
      rw [Bool.and_eq_true_iff, Json.isNull_eq_true_iff] at hn
      exact fun fault he => ⟨f, List.mem_of_find?_eq_some hf, rfl, hn, he⟩

/-- The entries of a struct are refused for one that stands under the name of a field, or for a
field that has no entry and needs one. -/
theorem collect_refusedBy (s : Abi.Struct) (entries : List (String × Json)) :
    RefusedBy (fun fault =>
        (∃ f ∈ s.fields, ∃ u, (f.name, u) ∈ entries ∧ ¬ (f.type.optional = true ∧ u = .null) ∧
          c.coerce (place.push (.field f.name)) f.type.expr u = .error fault) ∨
        ∃ f ∈ s.fields, f.name ∉ entries.map Prod.fst ∧ ¬ c.MayLack f ∧
          fault = .domain (place.push (.field f.name)) .present .null)
      (c.collect place s (c.coerceEntries place s entries)) := by
  rw [coerceEntries_eq_map]
  have hentry : ∀ e ∈ entries.map fun e => (e.1, c.coerceEntry place s e.1 e.2),
      RefusedBy (fun fault => ∃ f ∈ s.fields, ∃ u, (f.name, u) ∈ entries ∧
        ¬ (f.type.optional = true ∧ u = .null) ∧
        c.coerce (place.push (.field f.name)) f.type.expr u = .error fault) e.2 := by
    intro e he fault hfault
    obtain ⟨⟨key, u⟩, hu, rfl⟩ := List.mem_map.1 he
    obtain ⟨f, hf, rfl, hn, hcoerce⟩ := coerceEntry_refusedBy s key u fault hfault
    exact ⟨f, hf, u, hu, hn, hcoerce⟩
  refine .bind (.forM fun f hf => ?_) fun _ => .mapM fun e he => ?_
  · unfold checkField
    split
    · next result hl =>
      obtain ⟨front, back, hread, -⟩ := List.lookup_eq_some_iff.1 hl
      have hresult := hentry (f.name, result) (by simp [hread])
      exact .map _ fun fault hfault => .inl (hresult fault hfault)
    · next hl =>
      split
      · exact .ok _
      · next hneeds =>
        refine .error (.inr ⟨f, hf, fun hkey => ?_, fun hlack => hneeds ?_, rfl⟩)
        · obtain ⟨e, he, hname⟩ := List.mem_map.1 hkey
          have hread := List.mem_map_of_mem (f := fun e => (e.1, c.coerceEntry place s e.1 e.2)) he
          simpa [hname] using List.lookup_eq_none_iff.1 hl _ hread
        · simpa [MayLack, or_assoc] using hlack
  · exact .map _ fun fault hfault => .inl (hentry e he fault hfault)

/-- A type of lists refuses what is no list, and a list for one of its items. -/
theorem coerce_refusedBy_of_items (hr : c.reading expr = .items element) (v : Json) :
    RefusedBy (fun fault => (∀ items, v ≠ .array items) ∧ fault = .domain place .list v ∨
        ∃ items position u, v = .array items ∧ items[position]? = some u ∧
          c.coerce (place.push (.item position)) element u = .error fault)
      (c.coerce place expr v) := by
  conv_rhs => unfold coerce
  rw [hr]
  cases v with
  | array items =>
    refine .map _ fun fault hitems => .inr ?_
    obtain ⟨position, u, hu, hcoerce⟩ := coerceItems_refusedBy element 0 items fault hitems
    rw [Nat.zero_add] at hcoerce
    exact ⟨items, position, u, rfl, hu, hcoerce⟩
  | _ => exact .error (.inl ⟨by simp, rfl⟩)

/-- A struct refuses what is no object, and an object for its entries. -/
theorem coerce_refusedBy_of_fields (hr : c.reading expr = .fields s) (v : Json) :
    RefusedBy (fun fault => (∀ entries, v ≠ .object entries) ∧ fault = .domain place .object v ∨
        ∃ entries, v = .object entries ∧
          c.collect place s (c.coerceEntries place s entries) = .error fault)
      (c.coerce place expr v) := by
  conv_rhs => unfold coerce
  rw [hr]
  cases v with
  | object entries => exact .map _ fun fault h => .inr ⟨entries, rfl, h⟩
  | _ => exact .error (.inl ⟨by simp, rfl⟩)

/-- A variant refuses what is no pair, and a pair for its tag or its payload. -/
theorem coerce_refusedBy_of_branches {variant : Abi.Variant}
    (hr : c.reading expr = .branches variant) (v : Json) :
    RefusedBy (fun fault =>
        (∀ tag payload, v ≠ .array [tag, payload]) ∧ fault = .domain place .pair v ∨
        ∃ tag payload, v = .array [tag, payload] ∧
          (fault = .discriminant variant.name tag variant.branches.length ∨
            ∃ b, tagged? variant tag = some b ∧
              c.coerce (place.push (.branch b.index)) b.type payload = .error fault))
      (c.coerce place expr v) := by
  conv_rhs => unfold coerce
  rw [hr]
  cases v with
  | array items =>
    rcases items with _ | ⟨tag, _ | ⟨payload, _ | ⟨extra, rest⟩⟩⟩
    · exact .error (.inl ⟨by simp, rfl⟩)
    · exact .error (.inl ⟨by simp, rfl⟩)
    · dsimp only
      cases htag : tagged? variant tag with
      | none => exact .error (.inr ⟨tag, payload, rfl, .inl rfl⟩)
      | some b => exact .map _ fun fault h => .inr ⟨tag, payload, rfl, .inr ⟨b, htag, h⟩⟩
    · exact .error (.inl ⟨by simp, rfl⟩)
  | _ => exact .error (.inl ⟨by simp, rfl⟩)

/-- Entries are refused for what they hold if their values are. -/
theorem isMisreading_of_collect
    (hparts : ∀ u, Json.Part u (.object entries) → ∀ place expr fault,
      c.coerce place expr u = .error fault → fault.IsMisreading) :
    RefusedBy CallFault.IsMisreading (c.collect place s (c.coerceEntries place s entries)) := by
  intro fault h
  rcases collect_refusedBy s entries fault h with ⟨f, -, u, hu, -, hcoerce⟩ | ⟨f, -, -, -, rfl⟩
  · exact hparts u (.entry hu) _ _ fault hcoerce
  · exact .inl trivial

/-- A value is refused for what it holds. -/
theorem isMisreading_of_coerce (h : c.coerce place expr v = .error fault) :
    fault.IsMisreading := by
  induction v using Json.part_wellFounded.induction generalizing expr place fault with
  | _ v ih =>
    cases hr : c.reading expr with
    | asIs => cases h.symm.trans (coerce_of_asIs hr)
    | scalar kind =>
      rw [coerce_of_scalar hr] at h
      cases readScalar_refusedBy kind place v fault h
      exact .inl trivial
    | items element =>
      rcases coerce_refusedBy_of_items hr v fault h with
        ⟨-, rfl⟩ | ⟨items, position, u, rfl, hu, hcoerce⟩
      · exact .inl trivial
      · exact ih u (.item (List.mem_of_getElem? hu)) hcoerce
    | fields s =>
      rcases coerce_refusedBy_of_fields hr v fault h with ⟨-, rfl⟩ | ⟨entries, rfl, hcollect⟩
      · exact .inl trivial
      · exact isMisreading_of_collect (fun u hu _ _ _ => ih u hu) fault hcollect
    | branches variant =>
      rcases coerce_refusedBy_of_branches hr v fault h with
        ⟨-, rfl⟩ | ⟨tag, payload, rfl, rfl | ⟨b, -, hcoerce⟩⟩
      · exact .inl trivial
      · exact .inr trivial
      · exact ih payload (.item (by simp)) hcoerce

theorem isMisreading_of_coerceStruct (place : ValuePath) (s : Abi.Struct) (v : Json) :
    RefusedBy CallFault.IsMisreading (c.coerceStruct place s v) := by
  unfold coerceStruct
  split
  · exact isMisreading_of_collect fun _ _ _ _ _ => isMisreading_of_coerce
  · exact .error (.inl trivial)

/-- A row is refused for what it holds, with or without its payer. -/
theorem isMisreading_of_coerceRow (c : Coercer) (s : Abi.Struct) (layout : Layout) (row : Json) :
    RefusedBy CallFault.IsMisreading (c.coerceRow s layout row) := by
  unfold coerceRow
  split
  · exact (isMisreading_of_coerceStruct _ s _).bind fun _ => .ok _
  · split
    · exact .error (.inl trivial)
    · exact (isMisreading_of_coerceStruct _ s _).bind fun _ => .ok _

end Coercer

/-- A page is refused for what one of its rows holds. -/
theorem isMisreading_of_coercePage {g : Abi.Graph} {s : Abi.Struct} {layout : Layout}
    {page : Page Json} {fault : CallFault} (h : coercePage g s layout page = .error fault) :
    fault.IsMisreading := by
  have hrows : RefusedBy CallFault.IsMisreading (coercePage g s layout page) :=
    (RefusedBy.mapM fun row _ => (Coercer.ofGraph g).isMisreading_of_coerceRow s layout row).bind
      fun _ => .ok _
  exact hrows fault h

end Table

end ContractBinding
