import ContractBinding.Proofs.Call.FieldData

/-!
# Which arguments an action takes

Where no variant among the values has an unknown branch, a call is refused exactly for its shape:
too many slots or too few, an empty slot for a field that needs a value, a field that an object
lacks, or a key that no field has.
-/

namespace ContractBinding.Call

open Abi (Action Field Graph)

variable {g : Graph} {action : Action} {slots : List (Option HostValue)}
  {values : List (String × HostValue)}

/-- A call is refused for the shape of its arguments where the shape does not fit, and goes
through where it fits. -/
structure RefusedFor {α : Type} (outcome : Except CallFault α) (misfit : Prop) : Prop where
  refused_iff : (∃ fault, outcome = .error fault ∧ fault.IsArity) ↔ misfit
  sent_iff : (∃ a, outcome = .ok a) ↔ ¬ misfit

namespace RefusedFor

variable {α β : Type} {outcome : Except CallFault α} {misfit other : Prop}

/-- It is enough to know what comes of a misfit and what comes of a fit. -/
theorem intro (hmisfit : misfit → ∃ fault, outcome = .error fault ∧ fault.IsArity)
    (hfit : ¬ misfit → ∃ a, outcome = .ok a) : RefusedFor outcome misfit := by
  constructor
  · refine ⟨?_, hmisfit⟩
    rintro ⟨fault, hf, -⟩
    by_contra hno
    obtain ⟨a, ha⟩ := hfit hno
    simp [hf] at ha
  · refine ⟨?_, hfit⟩
    rintro ⟨a, ha⟩ hm
    obtain ⟨fault, hf, -⟩ := hmisfit hm
    simp [hf] at ha

/-- A call either does not fit and is refused, or fits and goes through. -/
theorem cases (h : RefusedFor outcome misfit) :
    (misfit ∧ ∃ fault, outcome = .error fault ∧ fault.IsArity) ∨
      (¬ misfit ∧ ∃ a, outcome = .ok a) := by
  by_cases hm : misfit
  · exact .inl ⟨hm, h.refused_iff.2 hm⟩
  · exact .inr ⟨hm, h.sent_iff.2 hm⟩

/-- The misfits may be said in another way. -/
theorem of_iff (h : RefusedFor outcome misfit) (hiff : misfit ↔ other) :
    RefusedFor outcome other :=
  ⟨h.refused_iff.trans hiff, h.sent_iff.trans (not_congr hiff)⟩

/-- The result may be seen in another way. -/
theorem map (h : RefusedFor outcome misfit) (f : α → β) : RefusedFor (outcome.map f) misfit := by
  obtain ⟨hrefused, hsent⟩ := h
  cases outcome with
  | ok a => exact ⟨by simpa [Except.map] using hrefused, by simpa [Except.map] using hsent⟩
  | error fault => exact ⟨by simpa [Except.map] using hrefused, by simpa [Except.map] using hsent⟩

end RefusedFor

/-- No variant in a value of a field has an unknown branch. -/
def Known (g : Graph) (f : Field) (value : HostValue) : Prop :=
  ∀ fault, reduce g f.type.expr value = .error fault → ¬ fault.IsDiscriminant

/-- The slots of a call hold known values. -/
def KnownSlots (g : Graph) (action : Action) (slots : List (Option HostValue)) : Prop :=
  ∀ (position : Nat) (f : Field) (value : HostValue), action.fields[position]? = some f →
    slots[position]? = some (some value) → Known g f value

/-- The values under the names of fields are known. -/
def KnownValues (g : Graph) (action : Action) (values : List (String × HostValue)) : Prop :=
  ∀ f ∈ action.fields, ∀ value, values.lookup f.name = some value → Known g f value

/-- A field needs a value: it may neither be left out nor be null. -/
def Needed (f : Field) : Prop := f.type.binaryExtension = false ∧ f.type.optional = false

/-- Among known values, a field is refused only where it has no value and needs one. -/
theorem Refused.of_known {missing : String → Mismatch} {f : Field} {slot : Option HostValue}
    {fault : CallFault} (h : Refused g action missing f slot fault)
    (hknown : ∀ value, slot = some value → Known g f value) :
    slot = none ∧ Needed f ∧ fault.IsArity := by
  cases h with
  | value h hd => exact absurd hd (hknown _ rfl _ h)
  | missing he ho => exact ⟨rfl, ⟨he, ho⟩, trivial⟩

/-- A list of fields gets its entries unless one of them needs a value that it does not have. -/
theorem mapM_fieldEntry_refusedFor {missing : String → Mismatch}
    {given : List (Field × Option HostValue)}
    (hknown : ∀ p ∈ given, ∀ value, p.2 = some value → Known g p.1 value) :
    RefusedFor (given.mapM fun p => fieldEntry g action missing p.1 p.2)
      (∃ f, (f, none) ∈ given ∧ Needed f) := by
  cases h : given.mapM fun p => fieldEntry g action missing p.1 p.2 with
  | ok entries =>
    refine .intro ?_ fun _ => ⟨entries, rfl⟩
    rintro ⟨f, hm, he, ho⟩
    obtain ⟨entry, hentry⟩ := Outcome.exists_mapM_eq_ok_iff.1 ⟨entries, h⟩ _ hm
    simp [fieldEntry_of_refused (.missing he ho)] at hentry
  | error fault =>
    obtain ⟨before, p, after, rfl, -, hp⟩ := Outcome.mapM_eq_error_iff.1 h
    have hm : p ∈ before ++ p :: after := by simp
    obtain ⟨hslot, hneeded, hf⟩ := (fieldEntry_eq_error_iff.1 hp).of_known (hknown p hm)
    refine .intro (fun _ => ⟨fault, rfl, hf⟩) fun hno => absurd ⟨p.1, ?_, hneeded⟩ hno
    rw [← hslot]
    exact hm

/-- Slots that do not fit the fields: too many, too few for a field that is no extension, or an
empty one for a field that needs a value. -/
def SlotMisfit (fields : List Field) (slots : List (Option HostValue)) : Prop :=
  fields.length < slots.length ∨
    (∃ (position : Nat) (f : Field), fields[position]? = some f ∧ slots.length ≤ position ∧
      f.type.binaryExtension = false) ∨
    ∃ (position : Nat) (f : Field), fields[position]? = some f ∧
      slots[position]? = some none ∧ Needed f

/-- There are slots missing for a field that is no extension exactly when there are fewer than the
least number of arguments. -/
theorem lt_requiredArity_iff_position {n : Nat} : n < action.requiredArity ↔
    ∃ (position : Nat) (f : Field), action.fields[position]? = some f ∧ n ≤ position ∧
      f.type.binaryExtension = false := by
  rw [lt_requiredArity_iff]
  constructor
  · rintro ⟨f, hf, he⟩
    obtain ⟨position, hposition⟩ := List.mem_iff_getElem?.1 hf
    rw [List.getElem?_drop] at hposition
    exact ⟨n + position, f, hposition, Nat.le_add_right .., he⟩
  · rintro ⟨position, f, hf, hn, he⟩
    refine ⟨f, List.mem_iff_getElem?.2 ⟨position - n, ?_⟩, he⟩
    rw [List.getElem?_drop, Nat.add_sub_cancel' hn]
    exact hf

/-- A number of slots out of range is refused. -/
theorem positionalData_of_count
    (h : action.fields.length < slots.length ∨ slots.length < action.requiredArity) :
    positionalData g action slots = .error (.arity action.name
      (.count action.requiredArity action.fields.length slots.length)) := by
  rw [positionalData, if_pos]
  simpa using h.symm

/-- A field is paired with the slot at its position, and with an empty one after the last slot. -/
theorem mem_zip_padded_iff {fields : List Field} (hmost : slots.length ≤ fields.length)
    {f : Field} {slot : Option HostValue} :
    (f, slot) ∈ fields.zip (slots ++ List.replicate (fields.length - slots.length) none) ↔
      ∃ position : Nat, fields[position]? = some f ∧
        (slots[position]? = some slot ∨ slots.length ≤ position ∧ slot = none) := by
  rw [List.mem_iff_getElem?]
  refine exists_congr fun position => ?_
  rw [List.getElem?_zip_eq_some]
  refine and_congr_right fun hf => ?_
  obtain ⟨hlt, -⟩ := List.getElem?_eq_some_iff.1 hf
  by_cases hp : position < slots.length
  · rw [List.getElem?_append_left hp]
    have hnot : ¬ slots.length ≤ position := by omega
    simp [hnot]
  · have hend : slots.length ≤ position := by omega
    rw [List.getElem?_append_right hend, List.getElem?_replicate, if_pos (by omega),
      List.getElem?_eq_none hend]
    simp [hend, eq_comm]

/-- Arguments in order are refused exactly where the slots do not fit. -/
theorem positionalData_refusedFor (hknown : KnownSlots g action slots) :
    RefusedFor (positionalData g action slots) (SlotMisfit action.fields slots) := by
  by_cases hmany : action.fields.length < slots.length
  · exact .intro (fun _ => ⟨_, positionalData_of_count (.inl hmany), trivial⟩)
      fun hno => absurd (.inl hmany) hno
  by_cases hfew : slots.length < action.requiredArity
  · have hmisfit := lt_requiredArity_iff_position.1 hfew
    exact .intro (fun _ => ⟨_, positionalData_of_count (.inr hfew), trivial⟩)
      fun hno => absurd (.inr (.inl hmisfit)) hno
  have hmost : slots.length ≤ action.fields.length := by omega
  rw [positionalData_eq (by omega) hmost]
  refine ((mapM_fieldEntry_refusedFor ?_).map _).of_iff ?_
  · rintro ⟨f, slot⟩ hm value rfl
    obtain ⟨position, hf, hslot | ⟨-, hnone⟩⟩ := (mem_zip_padded_iff hmost).1 hm
    · exact hknown position f value hf hslot
    · simp at hnone
  · simp only [mem_zip_padded_iff hmost]
    constructor
    · rintro ⟨f, ⟨position, hf, hslot | ⟨hend, -⟩⟩, hneeded⟩
      · exact .inr (.inr ⟨position, f, hf, hslot, hneeded⟩)
      · exact .inr (.inl ⟨position, f, hf, hend, hneeded.1⟩)
    · rintro (hlong | hshort | ⟨position, f, hf, hslot, hneeded⟩)
      · exact absurd hlong hmany
      · exact absurd (lt_requiredArity_iff_position.2 hshort) hfew
      · exact ⟨f, ⟨position, hf, .inl hslot⟩, hneeded⟩

/-- An object that does not fit the fields: it lacks one that needs a value, or has a key that no
field has. -/
def KeyMisfit (fields : List Field) (values : List (String × HostValue)) : Prop :=
  (∃ f ∈ fields, Needed f ∧ f.name ∉ values.map Prod.fst) ∨
    ∃ e ∈ values, e.1 ∉ fields.map Field.name

/-- The fields get the values under their names unless one that needs a value has none. -/
theorem mapM_values_refusedFor (hknown : KnownValues g action values) :
    RefusedFor (action.fields.mapM fun f =>
        fieldEntry g action .missingField f (values.lookup f.name))
      (∃ f ∈ action.fields, Needed f ∧ f.name ∉ values.map Prod.fst) := by
  have hgiven : ∀ p ∈ action.fields.map fun f => (f, values.lookup f.name),
      ∀ value, p.2 = some value → Known g p.1 value := by
    intro p hp value hvalue
    obtain ⟨f, hf, rfl⟩ := List.mem_map.1 hp
    exact hknown f hf value hvalue
  have h : RefusedFor
      ((action.fields.map fun f => (f, values.lookup f.name)).mapM fun p =>
        fieldEntry g action .missingField p.1 p.2)
      (∃ f, (f, none) ∈ action.fields.map (fun f => (f, values.lookup f.name)) ∧ Needed f) :=
    mapM_fieldEntry_refusedFor hgiven
  rw [List.mapM_map] at h
  refine h.of_iff (exists_congr fun f => ?_)
  rw [← Abi.isSome_lookup_iff, Option.not_isSome_iff_eq_none]
  simp only [List.mem_map, Prod.mk.injEq]
  constructor
  · rintro ⟨⟨_, hf, rfl, hnone⟩, hn⟩
    exact ⟨hf, hn, hnone⟩
  · rintro ⟨hf, hn, hnone⟩
    exact ⟨⟨f, hf, rfl, hnone⟩, hn⟩

/-- An object of arguments is refused exactly where it does not fit. -/
theorem objectData_refusedFor (hd : (action.fields.map Field.name).Nodup)
    (hknown : KnownValues g action values) :
    RefusedFor (objectData g action values) (KeyMisfit action.fields values) := by
  rw [objectData_eq hd]
  rcases (mapM_values_refusedFor hknown).cases with
    ⟨hlacks, fault, h, harity⟩ | ⟨hlacks, entries, h⟩
  · rw [h]
    exact .intro (fun _ => ⟨fault, rfl, harity⟩) fun hno => absurd (.inl hlacks) hno
  · rw [h]
    cases hleft : values.filter fun e => e.1 ∉ action.fields.map Field.name with
    | nil =>
      refine .intro ?_ fun _ => ⟨_, rfl⟩
      rintro (hno | ⟨e, he, hkey⟩)
      · exact absurd hno hlacks
      · rw [List.filter_eq_nil_iff] at hleft
        exact absurd (by simpa using hkey) (hleft e he)
    | cons e rest =>
      have he : e ∈ values.filter fun e => e.1 ∉ action.fields.map Field.name := by
        rw [hleft]
        exact List.mem_cons_self ..
      rw [List.mem_filter, decide_eq_true_eq] at he
      exact .intro (fun _ => ⟨_, rfl, trivial⟩) fun hno => absurd (.inr ⟨e, he⟩) hno

end ContractBinding.Call
