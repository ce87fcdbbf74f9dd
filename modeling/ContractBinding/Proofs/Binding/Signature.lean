import ContractBinding.Proofs.Binding.Emission
import ContractBinding.Proofs.Call.Acceptance
import ContractBinding.Proofs.Call.Conventions
import ContractBinding.Proofs.Name.Lexeme

/-!
# What the signatures of an action promise

The parameters of an action's method and the keys of its object method show which calls have the
right shape: how many arguments there may be, which of them may be left out or be null, and which
keys there are. A call is refused for its shape exactly where its signature shows it.
-/

namespace ContractBinding.Binding

open Abi (Action Field Graph)
open Call (KeyMisfit KnownSlots KnownValues Needed RefusedFor SlotMisfit)
open Listing (Entry Signature)

variable {doc : Abi.Document} {g : Graph} {contract : String} {m : Mapping}
  {action : Action} {fields : List Field} {slots : List (Option HostValue)}
  {values : List (String × HostValue)}

/-! ### Types that end in null -/

/-- The text of a type ends in the type null. -/
def EndsInNull (text : String) : Prop := "| null".toList <:+ text.toList

/-- A text that is joined with null ends in it. -/
theorem endsInNull_append (text : String) : EndsInNull (text ++ " | null") := by
  refine ⟨text.toList ++ [' '], ?_⟩
  simp

/-- A text whose end is another letter does not end in null. -/
theorem not_endsInNull_append {front last : String} {c : Char}
    (hlast : last.toList.getLast? = some c) (hc : c ≠ 'l') : ¬ EndsInNull (front ++ last) := by
  rintro ⟨rest, h⟩
  obtain ⟨most, hmost⟩ := List.getLast?_eq_some_iff.1 hlast
  have hends := congrArg List.getLast? h
  rw [String.toList_append, hmost, ← List.append_assoc, List.getLast?_concat] at hends
  have hsame : 'l' = c := by simpa using hends
  exact hc hsame.symm

/-- A text without a blank does not end in null. -/
theorem not_endsInNull_of_blank_notMem {text : String} (h : ' ' ∉ text.toList) :
    ¬ EndsInNull text := by
  rintro ⟨rest, hsplit⟩
  refine h ?_
  rw [← hsplit]
  simp

/-- No built-in type has a blank in its text. -/
theorem blank_notMem_hostType (p : Primitive) : ' ' ∉ p.hostType.toList := by
  unfold Primitive.hostType
  cases p.hostClass with
  | reinterpreted kind => cases kind <;> decide
  | _ => decide

/-- No exported name of a contract whose own name is an identifier has a blank. -/
theorem blank_notMem_exportedName (hc : Name.isIdentifier m.contract = true) (declared : String) :
    ' ' ∉ (m.exportedName declared).toList := by
  intro h
  have hpart := Name.isIdentifierPart_of_isIdentifier (Name.isIdentifier_typeName hc declared) _ h
  exact absurd hpart (by decide)

/-- No type ends in null by itself. -/
theorem not_endsInNull_typeText (hc : Name.isIdentifier m.contract = true) (expr : TypeExpr) :
    ¬ EndsInNull (m.typeText expr) := by
  cases expr with
  | primitive p => exact not_endsInNull_of_blank_notMem (blank_notMem_hostType p)
  | array element => exact not_endsInNull_append (c := '>') (by decide) (by decide)
  | named name =>
    show ¬ EndsInNull (m.nameText name)
    unfold Mapping.nameText
    cases m.pairs.lookup name with
    | none => exact not_endsInNull_of_blank_notMem (blank_notMem_exportedName hc name)
    | some members => exact not_endsInNull_append (c := '\x7d') (by decide) (by decide)

/-- The type of a field ends in null exactly when the field may be null. -/
theorem endsInNull_fieldText_iff (hc : Name.isIdentifier m.contract = true) (f : Field) :
    EndsInNull (m.fieldText f) ↔ f.type.optional = true := by
  unfold Mapping.fieldText
  cases f.type.optional with
  | true => exact iff_of_true (endsInNull_append _) rfl
  | false => exact iff_of_false (not_endsInNull_typeText hc _) Bool.false_ne_true

/-! ### The shapes of calls -/

/-- Slots that do not fit parameters: too many, too few for a parameter that may not be left out,
or an empty one whose parameter may neither be left out nor be null. -/
def ParameterMisfit (parameters : List Entry) (slots : List (Option HostValue)) : Prop :=
  parameters.length < slots.length ∨
    (∃ (position : Nat) (e : Entry), parameters[position]? = some e ∧
      slots.length ≤ position ∧ e.optional = false) ∨
    ∃ (position : Nat) (e : Entry), parameters[position]? = some e ∧
      slots[position]? = some none ∧ e.optional = false ∧ ¬ EndsInNull e.type

/-- An object that does not fit the keys of a bundle: it lacks one that may not be left out, or has
one that is not there. -/
def KeysMisfit (bundle : List Entry) (values : List (String × HostValue)) : Prop :=
  (∃ e ∈ bundle, e.optional = false ∧ e.name ∉ values.map fun v => Name.propertyKey v.1) ∨
    ∃ v ∈ values, Name.propertyKey v.1 ∉ bundle.map Entry.name

/-- Slots fit fields exactly when they fit their parameters. -/
theorem slotMisfit_iff (hc : Name.isIdentifier m.contract = true) :
    SlotMisfit fields slots ↔ ParameterMisfit (Entry.parameters m fields) slots := by
  have h := Listing.forall₂_isParameterOf m fields
  unfold SlotMisfit ParameterMisfit
  refine or_congr ?_ (or_congr ?_ ?_)
  · rw [h.length_eq]
  · refine Outcome.exists_getElem?_iff h fun position f e he => ?_
    rw [he.optional]
  · -- Null is read off the text of a type, where an exported name must not look like it.
    refine Outcome.exists_getElem?_iff h fun position f e he => ?_
    rw [he.optional, he.type, endsInNull_fieldText_iff hc, Needed, Bool.not_eq_true]

/-- An object fits fields exactly when it fits their keys. -/
theorem keyMisfit_iff :
    KeyMisfit fields values ↔ KeysMisfit (fields.map (Entry.ofField m)) values := by
  have hkey (name : String) (names : List String) :
      Name.propertyKey name ∈ names.map Name.propertyKey ↔ name ∈ names :=
    List.mem_map_of_injective Name.propertyKey_injective
  have hvalues : values.map (fun e => Name.propertyKey e.1) =
      (values.map Prod.fst).map Name.propertyKey := by
    rw [List.map_map]
    rfl
  have hfields : (fields.map (Entry.ofField m)).map Entry.name =
      (fields.map Field.name).map Name.propertyKey := by
    rw [List.map_map, List.map_map]
    rfl
  unfold KeyMisfit KeysMisfit
  rw [hvalues, hfields]
  refine or_congr ?_ ?_
  · constructor
    · rintro ⟨f, hf, hneeded, hlacks⟩
      exact ⟨_, List.mem_map_of_mem hf, Bool.or_eq_false_iff.2 hneeded, mt (hkey _ _).1 hlacks⟩
    · rintro ⟨e, he, hrequired, hlacks⟩
      obtain ⟨f, hf, rfl⟩ := List.mem_map.1 he
      exact ⟨f, hf, Bool.or_eq_false_iff.1 hrequired, mt (hkey _ _).2 hlacks⟩
  · simp only [hkey]

/-! ### The methods of an action -/

/-- The two methods that the code of a graph writes for an action have its fields for parameters and
for keys, and take exactly the shapes of calls that the action takes. -/
structure Signed (g : Graph) (contract : String) (action : Action) : Prop where
  method_exists : ∃ method ∈ (Listing.ofGraph g contract).methods, method.name = action.name
  parameters : ∀ method ∈ (Listing.ofGraph g contract).methods, method.name = action.name →
    method.entries.map Entry.name = Name.parameterNames (action.fields.map Field.name) ∧
      List.Forall₂ (Entry.IsParameterOf (Mapping.ofGraph g contract)) action.fields method.entries
  positional : ∀ method ∈ (Listing.ofGraph g contract).methods, method.name = action.name →
    ∀ slots, KnownSlots g action slots →
      RefusedFor (Call.positionalData g action slots) (ParameterMisfit method.entries slots)
  object_exists : ∃ method ∈ (Listing.ofGraph g contract).bundles,
    method.name = Name.objectMethod action.name
  keys : ∀ method ∈ (Listing.ofGraph g contract).bundles,
    method.name = Name.objectMethod action.name →
      List.Forall₂ (Entry.IsKeyOf (Mapping.ofGraph g contract)) action.fields method.entries
  object : ∀ method ∈ (Listing.ofGraph g contract).bundles,
    method.name = Name.objectMethod action.name → ∀ values, KnownValues g action values →
      RefusedFor (Call.objectData g action values) (KeysMisfit method.entries values)

/-- The code of a resolved graph signs every action with the shapes of calls that it takes: what the
text is made of are its signatures, each with its parameters or keys on a line of its own. -/
theorem signed_of_emit (hg : Abi.resolve doc = .ok g) {header : Header} {text : String}
    (he : emit g contract header = .ok text) (ha : action ∈ g.actions) :
    (Listing.ofGraph g contract).WrittenIn header.text text ∧ Signed g contract action := by
  have hr := Abi.resolve_eq_ok_iff.1 hg
  obtain ⟨i, hi, -⟩ := emit_eq_ok_iff.1 he
  obtain ⟨hc, -, -⟩ := interface_eq_ok_iff.1 hi
  have hmethod {method : Signature} (hm : method ∈ (Listing.ofGraph g contract).methods)
      (hn : method.name = action.name) :
      method.entries = Entry.parameters (Mapping.ofGraph g contract) action.fields := by
    obtain ⟨other, hother, rfl⟩ := List.mem_map.1 hm
    rw [List.inj_on_of_nodup_map hr.actions_distinct hother ha hn]
  have hbundle {method : Signature} (hm : method ∈ (Listing.ofGraph g contract).bundles)
      (hn : method.name = Name.objectMethod action.name) :
      method.entries = action.fields.map (Entry.ofField (Mapping.ofGraph g contract)) := by
    obtain ⟨other, hother, rfl⟩ := List.mem_map.1 hm
    rw [List.inj_on_of_nodup_map hr.actions_distinct hother ha (Name.objectMethod_injective hn)]
  refine ⟨writtenIn_of_emit he, ?_⟩
  constructor
  case method_exists => exact ⟨_, List.mem_map_of_mem ha, rfl⟩
  case parameters =>
    intro method hm hn
    rw [hmethod hm hn]
    exact ⟨map_parameters (fun _ _ => rfl) _, Listing.forall₂_isParameterOf _ _⟩
  case positional =>
    intro method hm hn slots hknown
    rw [hmethod hm hn]
    exact (Call.positionalData_refusedFor hknown).of_iff (slotMisfit_iff hc)
  case object_exists => exact ⟨_, List.mem_map_of_mem ha, rfl⟩
  case keys =>
    intro method hm hn
    rw [hbundle hm hn]
    exact Listing.forall₂_isKeyOf _ _
  case object =>
    intro method hm hn values hknown
    rw [hbundle hm hn]
    exact (Call.objectData_refusedFor (hr.actionFields_distinct ha) hknown).of_iff keyMisfit_iff

theorem join_signed :
    Abi.resolve Abi.membership = .ok Abi.membershipGraph ∧
      Call.join ∈ Abi.membershipGraph.actions ∧
      ∃ text, emit Abi.membershipGraph "Dao" ⟨defaultRuntimeModule, none⟩ = .ok text ∧
        (Listing.ofGraph Abi.membershipGraph "Dao").WrittenIn
          (Header.text ⟨defaultRuntimeModule, none⟩) text ∧
        Signed Abi.membershipGraph "Dao" Call.join := by
  have hjoin : Call.join ∈ Abi.membershipGraph.actions := by decide
  exact ⟨Abi.resolve_membership, hjoin, _, emit_membership,
    signed_of_emit Abi.resolve_membership emit_membership hjoin⟩

end ContractBinding.Binding
