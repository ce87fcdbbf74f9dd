import ContractBinding.Proofs.Abi.Names
import ContractBinding.Proofs.Call.Reduction
import Mathlib.Data.List.Induction
import Mathlib.Data.List.ReduceOption

/-!
# The data of an action, field by field

What an action is sent is decided for each of its fields alone: by the slot of the field among
arguments in order, by the value under its name in an object. Where no two fields have one name,
taking values out of an object leaves every later field its own.
-/

namespace ContractBinding.Call

open Abi (Action Field Graph)

variable {g : Graph} {action : Action} {f : Field} {missing : String → Mismatch}
  {slot : Option HostValue}

/-- What the data of a call has for a field, by the value that the field is given. -/
inductive Sent (g : Graph) (f : Field) : Option HostValue → Option Json → Prop where
  | supplied {value : HostValue} (h : reduce g f.type.expr value = .ok value.toWire) :
    Sent g f (some value) (some value.toWire)
  /-- An extension without a value is left out. -/
  | leftOut (he : f.type.binaryExtension = true) : Sent g f none none
  | null (he : f.type.binaryExtension = false) (ho : f.type.optional = true) :
    Sent g f none (some .null)

/-- Why a field is refused, by the value that it is given. -/
inductive Refused (g : Graph) (action : Action) (missing : String → Mismatch) (f : Field) :
    Option HostValue → CallFault → Prop where
  | value {value : HostValue} {fault : CallFault}
    (h : reduce g f.type.expr value = .error fault) (hd : fault.IsDiscriminant) :
    Refused g action missing f (some value) fault
  | missing (he : f.type.binaryExtension = false) (ho : f.type.optional = false) :
    Refused g action missing f none (.arity action.name (missing f.name))

/-- A field is either sent or refused, whatever it is given. -/
theorem sent_or_refused (g : Graph) (action : Action) (missing : String → Mismatch) (f : Field)
    (slot : Option HostValue) :
    (∃ wire, Sent g f slot wire) ∨ ∃ fault, Refused g action missing f slot fault := by
  cases slot with
  | some value =>
    cases hr : reduce g f.type.expr value with
    | ok wire =>
      obtain rfl := eq_toWire_of_reduce hr
      exact .inl ⟨_, .supplied hr⟩
    | error fault => exact .inr ⟨fault, .value hr (isDiscriminant_of_reduce hr)⟩
  | none =>
    cases he : f.type.binaryExtension with
    | true => exact .inl ⟨none, .leftOut he⟩
    | false =>
      cases ho : f.type.optional with
      | true => exact .inl ⟨_, .null he ho⟩
      | false => exact .inr ⟨_, .missing he ho⟩

/-- A field that is sent gets its entry. -/
theorem fieldEntry_of_sent {wire : Option Json} (h : Sent g f slot wire) :
    fieldEntry g action missing f slot = .ok (wire.map (f.name, ·)) := by
  cases h with
  | supplied h =>
    simp only [fieldEntry, h]
    rfl
  | leftOut he => simp [fieldEntry, he]
  | null he ho => simp [fieldEntry, he, ho]

/-- A field that is refused gets none. -/
theorem fieldEntry_of_refused {fault : CallFault} (h : Refused g action missing f slot fault) :
    fieldEntry g action missing f slot = .error fault := by
  cases h with
  | value h _ =>
    simp only [fieldEntry, h]
    rfl
  | missing he ho => simp [fieldEntry, he, ho]

/-- The entry of a field says what is sent for it. -/
theorem fieldEntry_eq_ok_iff {entry : Option (String × Json)} :
    fieldEntry g action missing f slot = .ok entry ↔
      ∃ wire, Sent g f slot wire ∧ entry = wire.map (f.name, ·) := by
  constructor
  · intro h
    rcases sent_or_refused g action missing f slot with ⟨wire, hs⟩ | ⟨fault, hr⟩
    · rw [fieldEntry_of_sent hs] at h
      exact ⟨wire, hs, (Except.ok.inj h).symm⟩
    · simp [fieldEntry_of_refused hr] at h
  · rintro ⟨wire, hs, rfl⟩
    exact fieldEntry_of_sent hs

/-- The fault of a field says why it is refused. -/
theorem fieldEntry_eq_error_iff {fault : CallFault} :
    fieldEntry g action missing f slot = .error fault ↔
      Refused g action missing f slot fault := by
  constructor
  · intro h
    rcases sent_or_refused g action missing f slot with ⟨wire, hs⟩ | ⟨other, hr⟩
    · simp [fieldEntry_of_sent hs] at h
    · cases (fieldEntry_of_refused hr).symm.trans h
      exact hr
  · exact fieldEntry_of_refused

/-- Fields of distinct names are given the values under their names, and leave the others. -/
theorem takeFields_eq {fields : List Field} (hd : (fields.map Field.name).Nodup)
    (values : List (String × HostValue)) :
    takeFields g action fields values =
      (fields.mapM fun f => fieldEntry g action .missingField f (values.lookup f.name)).map
        fun entries => (entries, values.filter fun e => e.1 ∉ fields.map Field.name) := by
  induction fields generalizing values with
  | nil => simp [takeFields, pure, Except.pure, Except.map]
  | cons f rest ih =>
    rw [List.map_cons, List.nodup_cons] at hd
    -- A later field has another name, so what it is given has not been taken.
    have hlater : ∀ other ∈ rest, fieldEntry g action .missingField other
        ((Keyed.erase f.name values).lookup other.name) =
          fieldEntry g action .missingField other (values.lookup other.name) := by
      intro other hother
      have hne : other.name ≠ f.name := fun h => hd.1 (h ▸ List.mem_map_of_mem hother)
      rw [Keyed.lookup_erase_of_ne hne]
    have hleft : (Keyed.erase f.name values).filter (fun e => e.1 ∉ rest.map Field.name) =
        values.filter fun e => e.1 ∉ (f :: rest).map Field.name := by
      rw [Keyed.erase, List.filter_filter]
      refine List.filter_congr ?_
      intro e _
      by_cases h : e.1 = f.name <;> simp [h]
    rw [takeFields, ih hd.2, hleft, Outcome.mapM_congr hlater, List.mapM_cons]
    cases fieldEntry g action .missingField f (values.lookup f.name) with
    | error fault => rfl
    | ok entry =>
      cases rest.mapM fun f => fieldEntry g action .missingField f (values.lookup f.name) with
      | error fault => rfl
      | ok entries => rfl

/-- The data has what is sent for every field by what the field is given, and nothing else. -/
structure Carries (g : Graph) (fields : List Field) (given : Field → Option HostValue)
    (data : List (String × Json)) : Prop where
  ordered : Keyed.Sorted data
  sent : ∀ f ∈ fields, Sent g f (given f) (data.lookup f.name)
  declared : ∀ key ∈ data.map Prod.fst, key ∈ fields.map Field.name

section Entries

variable {fields : List Field} {given : Field → Option HostValue}
  {entries : List (Option (String × Json))}

-- Entries have the names of their fields, and the fields that are left out have none.
private theorem keys_sublist (h : List.Forall₂
    (fun f entry => ∃ wire, Sent g f (given f) wire ∧ entry = wire.map (f.name, ·))
    fields entries) : (entries.reduceOption.map Prod.fst).Sublist (fields.map Field.name) := by
  induction h with
  | nil => exact .slnil
  | cons hentry _ ih =>
    obtain ⟨wire, -, rfl⟩ := hentry
    cases wire with
    | none => exact ih.cons _
    | some wire => exact ih.cons_cons _

private theorem sent_of_entries (hd : (fields.map Field.name).Nodup) (h : List.Forall₂
    (fun f entry => ∃ wire, Sent g f (given f) wire ∧ entry = wire.map (f.name, ·))
    fields entries) : ∀ f ∈ fields, Sent g f (given f) (entries.reduceOption.lookup f.name) := by
  induction h with
  | nil => simp
  | @cons f _ rest _ hentry hrest ih =>
    rw [List.map_cons, List.nodup_cons] at hd
    obtain ⟨wire, hs, rfl⟩ := hentry
    rw [List.forall_mem_cons]
    cases wire with
    | none =>
      have hfresh : f.name ∉ (List.reduceOption _).map Prod.fst :=
        fun hm => hd.1 ((keys_sublist hrest).subset hm)
      rw [← Abi.isSome_lookup_iff, Option.not_isSome_iff_eq_none] at hfresh
      refine ⟨?_, ih hd.2⟩
      rw [Option.map_none, List.reduceOption_cons_of_none, hfresh]
      exact hs
    | some wire =>
      rw [Option.map_some, List.reduceOption_cons_of_some]
      refine ⟨by simpa using hs, ?_⟩
      intro other hother
      have hne : other.name ≠ f.name := fun he => hd.1 (he ▸ List.mem_map_of_mem hother)
      rw [List.lookup_cons, beq_eq_false_iff_ne.2 hne]
      exact ih hd.2 other hother

/-- Fields of distinct names that all get their entries make up the data. -/
theorem carries_ofList (hd : (fields.map Field.name).Nodup)
    (h : fields.mapM (fun f => fieldEntry g action missing f (given f)) = .ok entries) :
    Carries g fields given (Keyed.ofList entries.reduceOption) := by
  simp only [Outcome.mapM_eq_ok_iff, fieldEntry_eq_ok_iff] at h
  have hkeys := (keys_sublist h).nodup hd
  constructor
  case ordered => exact Keyed.sorted_ofList _
  case sent =>
    intro f hf
    rw [Abi.lookup_ofList_of_nodup hkeys]
    exact sent_of_entries hd h f hf
  case declared =>
    intro key hkey
    rw [← Abi.isSome_lookup_iff, Abi.lookup_ofList_of_nodup hkeys, Abi.isSome_lookup_iff] at hkey
    exact (keys_sublist h).subset hkey

end Entries

-- What is left once the end of a list that passes a test is cut off.
private theorem lt_length_dropWhile_reverse {α : Type} {p : α → Bool} {xs : List α} {n : Nat} :
    n < (xs.reverse.dropWhile p).length ↔ ∃ x ∈ xs.drop n, p x = false := by
  induction xs using List.reverseRecOn with
  | nil => simp
  | append_singleton xs x ih =>
    rw [List.reverse_append, List.reverse_singleton, List.singleton_append, List.drop_append]
    by_cases hx : p x = true
    · have hlast : ¬ ∃ y ∈ [x].drop (n - xs.length), p y = false := by
        rintro ⟨y, hy, hp⟩
        obtain rfl : y = x := by simpa using List.mem_of_mem_drop hy
        simp [hx] at hp
      rw [List.dropWhile_cons_of_pos hx, ih]
      simp only [List.mem_append, or_and_right, exists_or, hlast, or_false]
    · rw [List.dropWhile_cons_of_neg hx, List.length_cons, List.length_reverse]
      constructor
      · intro hn
        have hdrop : n - xs.length = 0 := by omega
        exact ⟨x, by simp [hdrop], by simpa using hx⟩
      · rintro ⟨y, hy, -⟩
        by_contra hn
        rw [List.drop_of_length_le (by omega), List.drop_of_length_le (by simp; omega)] at hy
        simp at hy

/-- Arguments in order have to reach the last field that is no extension. -/
theorem lt_requiredArity_iff {n : Nat} : n < action.requiredArity ↔
    ∃ f ∈ action.fields.drop n, f.type.binaryExtension = false :=
  lt_length_dropWhile_reverse

/-- Arguments in order of a right number give each field its slot, an empty one at the end. -/
theorem positionalData_eq {slots : List (Option HostValue)}
    (hleast : action.requiredArity ≤ slots.length) (hmost : slots.length ≤ action.fields.length) :
    positionalData g action slots =
      ((action.fields.zip
        (slots ++ List.replicate (action.fields.length - slots.length) none)).mapM fun p =>
          fieldEntry g action .emptySlot p.1 p.2).map
        fun entries => Keyed.ofList entries.reduceOption := by
  have hcount : ¬ (slots.length < action.requiredArity || action.fields.length < slots.length)
      = true := by
    simp only [Bool.or_eq_true, decide_eq_true_eq]
    omega
  rw [positionalData, if_neg hcount]
  rfl

/-- An object gives each field the value under its name, and no value may be left over. -/
theorem objectData_eq (hd : (action.fields.map Field.name).Nodup)
    (values : List (String × HostValue)) :
    objectData g action values = (do
      let entries ← action.fields.mapM fun f =>
        fieldEntry g action .missingField f (values.lookup f.name)
      match values.filter fun e => e.1 ∉ action.fields.map Field.name with
      | [] => return Keyed.ofList entries.reduceOption
      | (key, _) :: _ =>
        .error (.arity action.name (.unknownField action.fields.length key))) := by
  unfold objectData
  rw [takeFields_eq hd]
  cases action.fields.mapM fun f =>
    fieldEntry g action .missingField f (values.lookup f.name) <;> rfl

end ContractBinding.Call
