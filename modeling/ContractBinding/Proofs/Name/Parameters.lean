import ContractBinding.Proofs.Name.Identifier
import Mathlib.Data.List.Nodup
import Mathlib.Data.List.Perm.Subperm

/-!
# Parameter names

The parameters of an action are named after its fields. Whatever text the name of a field is, its
parameter is an identifier that is not reserved, and the parameters of an action and the options of
the call have names of their own. A parameter has no more underscores at its end than it takes.
-/

namespace ContractBinding.Name

variable {name field : String} {taken fields : List String}

/-! ### The parameter for one field -/

/-- The characters that are left of a name are those of identifiers. -/
theorem isIdentifierPart_of_mem_identifierChars {cs : List Char} :
    ∀ c ∈ identifierChars cs, isIdentifierPart c = true := by
  unfold identifierChars
  rw [List.forall_mem_map]
  intro c _
  split
  · next h => exact h
  · rfl

/-- Characters of identifiers are an identifier once they are guarded. -/
theorem isIdentifierChars_guardStart {cs : List Char}
    (h : ∀ c ∈ cs, isIdentifierPart c = true) : isIdentifierChars (guardStart cs) = true := by
  unfold guardStart
  split
  · rfl
  · next first rest =>
    split
    · exact (isIdentifierChars_cons_iff (List.forall_mem_cons.2 ⟨rfl, h⟩)).2 rfl
    · next hdigit => exact (isIdentifierChars_cons_iff h).2 (Bool.eq_false_iff.2 hdigit)

/-- No reserved word has an underscore. -/
theorem underscore_notMem_of_isReserved (h : isReserved name = true) : '_' ∉ name.toList := by
  have hwords : ∀ word ∈ reservedWords, '_' ∉ word.toList := by decide
  exact hwords name (List.contains_iff_mem.1 h)

/-- The parameter for a field is an identifier. -/
theorem isIdentifier_parameterName (field : String) :
    isIdentifier (parameterName field) = true := by
  have hname : isIdentifier
      (String.ofList (guardStart (identifierChars field.toList))) = true := by
    rw [isIdentifier, String.toList_ofList]
    exact isIdentifierChars_guardStart isIdentifierPart_of_mem_identifierChars
  unfold parameterName
  dsimp only
  split
  · exact isIdentifier_append hname (List.all_eq_true.1 (by decide))
  · exact hname

/-- The parameter for a field is not reserved. -/
theorem isReserved_parameterName (field : String) : isReserved (parameterName field) = false := by
  unfold parameterName
  dsimp only
  split
  · exact Bool.eq_false_iff.2 fun h => underscore_notMem_of_isReserved h (by simp)
  · next h => exact Bool.eq_false_iff.2 h

/-! ### Underscores -/

/-- An identifier with underscores after it is one. -/
theorem isIdentifier_padded (h : isIdentifier name = true) (count : Nat) :
    isIdentifier (padded name count) = true := by
  refine isIdentifier_append h fun c hc => ?_
  rw [String.toList_ofList] at hc
  rw [List.eq_of_mem_replicate hc]
  rfl

/-- No name becomes reserved by underscores after it. -/
theorem isReserved_padded (h : isReserved name = false) (count : Nat) :
    isReserved (padded name count) = false := by
  cases count with
  | zero => simpa [padded] using h
  | succ count =>
    refine Bool.eq_false_iff.2 fun hreserved => underscore_notMem_of_isReserved hreserved ?_
    simp [padded]

/-- Each further underscore makes another name. -/
theorem padded_injective (name : String) : Function.Injective (padded name) := by
  intro count other h
  have hlength := congrArg (fun name => name.toList.length) h
  simpa [padded] using hlength

/-- A name with so many underscores is not taken, and with fewer it is. -/
structure FewestFree (taken : List String) (name : String) (count : Nat) : Prop where
  free : padded name count ∉ taken
  fewest : ∀ fewer < count, padded name fewer ∈ taken

/-- Some name with no more underscores than there are taken names is free. -/
theorem exists_free (taken : List String) (name : String) :
    ∃ count ∈ List.range (taken.length + 1), padded name count ∉ taken := by
  by_contra h
  push Not at h
  have hsubset : (List.range (taken.length + 1)).map (padded name) ⊆ taken :=
    List.forall_mem_map.2 h
  have hdistinct : ((List.range (taken.length + 1)).map (padded name)).Nodup :=
    (List.nodup_map_iff (padded_injective name)).2 List.nodup_range
  have hlength := (hdistinct.subperm hsubset).length_le
  rw [List.length_map, List.length_range] at hlength
  omega

/-- Of taken names only it matters which they are. -/
theorem FewestFree.congr {count : Nat} {other : List String} (h : FewestFree taken name count)
    (hsame : ∀ n, n ∈ taken ↔ n ∈ other) : FewestFree other name count where
  free := mt (hsame _).2 h.free
  fewest fewer hfewer := (hsame _).1 (h.fewest fewer hfewer)

/-- The search for a free name finds the one with the fewest underscores. -/
theorem exists_fewestFree (taken : List String) (name : String) :
    ∃ count ≤ taken.length, distinctFrom taken name = padded name count ∧
      FewestFree taken name count := by
  obtain ⟨enough, hin, hfree⟩ := exists_free taken name
  unfold distinctFrom
  rw [List.find?_map]
  cases hfind : (List.range (taken.length + 1)).find?
      ((fun candidate => !taken.contains candidate) ∘ padded name) with
  | none =>
    rw [List.find?_eq_none] at hfind
    exact absurd hfree (by simpa using hfind enough hin)
  | some count =>
    obtain ⟨hcount, hrange, hfewer⟩ := List.find?_range_eq_some.1 hfind
    refine ⟨count, Nat.le_of_lt_succ (List.mem_range.1 hrange), rfl, ⟨?_, fun fewer hlt => ?_⟩⟩
    · simpa using hcount
    · simpa using hfewer fewer hlt

/-! ### The parameters of an action -/

/-- Every field has its parameter. -/
theorem length_parameterNamesFrom (taken fields : List String) :
    (parameterNamesFrom taken fields).length = fields.length := by
  induction fields generalizing taken with
  | nil => rfl
  | cons field rest ih => exact congrArg (· + 1) (ih _)

/-- The parameter of a field has the fewest underscores that keep it apart from the names that were
taken at first and from the parameters before it. -/
theorem exists_padded_of_getElem? (taken : List String) {position : Nat}
    (h : fields[position]? = some field) :
    ∃ count ≤ taken.length + position,
      (parameterNamesFrom taken fields)[position]? =
        some (padded (parameterName field) count) ∧
      FewestFree (taken ++ (parameterNamesFrom taken fields).take position)
        (parameterName field) count := by
  induction fields generalizing taken position with
  | nil => simp at h
  | cons first rest ih =>
    obtain ⟨count, hcount, hname, hfewest⟩ := exists_fewestFree taken (parameterName first)
    cases position with
    | zero =>
      cases Option.some.inj h
      refine ⟨count, hcount, congrArg some hname, ?_⟩
      rwa [List.take_zero, List.append_nil]
    | succ position =>
      obtain ⟨later, hlater, hget, hfree⟩ :=
        ih (distinctFrom taken (parameterName first) :: taken) h
      refine ⟨later, ?_, hget, hfree.congr fun n => ?_⟩
      · rw [List.length_cons] at hlater
        omega
      · rw [parameterNamesFrom, List.take_succ_cons]
        simp only [List.cons_append, List.mem_cons, List.mem_append]
        tauto

/-- Every parameter is that of a field with underscores after it, and is neither taken at first nor
among the parameters before it. -/
theorem exists_padded_of_lt {position : Nat}
    (hlt : position < (parameterNamesFrom taken fields).length) :
    ∃ field count,
      (parameterNamesFrom taken fields)[position] = padded (parameterName field) count ∧
      (parameterNamesFrom taken fields)[position] ∉
        taken ++ (parameterNamesFrom taken fields).take position := by
  have hfield : position < fields.length := by rwa [← length_parameterNamesFrom taken]
  obtain ⟨count, -, hget, hfewest⟩ :=
    exists_padded_of_getElem? taken (List.getElem?_eq_getElem hfield)
  have hname := (List.getElem_eq_iff hlt).2 hget
  exact ⟨_, count, hname, hname ▸ hfewest.free⟩

/-- What holds of the parameters for single fields, however many underscores follow them, holds of
all parameters. -/
theorem forall_mem_parameterNamesFrom {P : String → Prop}
    (h : ∀ field count, P (padded (parameterName field) count)) :
    ∀ name ∈ parameterNamesFrom taken fields, P name := by
  intro name hname
  obtain ⟨position, hlt, rfl⟩ := List.mem_iff_getElem.1 hname
  obtain ⟨field, count, hpadded, -⟩ := exists_padded_of_lt hlt
  exact hpadded ▸ h field count

/-- Every parameter is an identifier. -/
theorem isIdentifier_of_mem_parameterNamesFrom :
    ∀ name ∈ parameterNamesFrom taken fields, isIdentifier name = true :=
  forall_mem_parameterNamesFrom fun field =>
    isIdentifier_padded (isIdentifier_parameterName field)

/-- No parameter has a name that was taken at first. -/
theorem notMem_of_mem_parameterNamesFrom (h : name ∈ parameterNamesFrom taken fields) :
    name ∉ taken := by
  obtain ⟨position, hlt, rfl⟩ := List.mem_iff_getElem.1 h
  obtain ⟨-, -, -, hfree⟩ := exists_padded_of_lt hlt
  exact fun htaken => hfree (List.mem_append_left _ htaken)

/-- No two parameters have one name. -/
theorem nodup_parameterNamesFrom (taken fields : List String) :
    (parameterNamesFrom taken fields).Nodup := by
  rw [List.nodup_iff_getElem?_ne_getElem?]
  intro first second hlt hsecond
  obtain ⟨-, -, -, hfree⟩ := exists_padded_of_lt hsecond
  have hfirst : first < (parameterNamesFrom taken fields).length := Nat.lt_trans hlt hsecond
  rw [List.getElem?_eq_getElem hfirst, List.getElem?_eq_getElem hsecond]
  intro hsame
  refine hfree (List.mem_append_right _ ?_)
  rw [← Option.some.inj hsame]
  exact List.mem_take_iff_getElem.2 ⟨first, by omega, rfl⟩

/-- The parameters of an action can stand in its signature: one for every field in order, each an
identifier that is not reserved and not the options of the call, and no two alike. They differ
from the fields by the fewest underscores. -/
structure Usable (fields names : List String) : Prop where
  length_eq : names.length = fields.length
  identifier : ∀ name ∈ names, isIdentifier name = true
  unreserved : ∀ name ∈ names, isReserved name = false
  apart : optionsParameter ∉ names
  distinct : names.Nodup
  /-- The renaming ends: of so many candidates one is free. -/
  fewest : ∀ (position : Nat) (field : String), fields[position]? = some field →
    ∃ count ≤ position + 1, names[position]? = some (padded (parameterName field) count) ∧
      FewestFree (optionsParameter :: names.take position) (parameterName field) count

/-- The parameters of fields of any names can stand in a signature. -/
theorem usable_parameterNames (fields : List String) : Usable fields (parameterNames fields) where
  length_eq := length_parameterNamesFrom _ fields
  identifier := isIdentifier_of_mem_parameterNamesFrom
  unreserved := forall_mem_parameterNamesFrom fun field =>
    isReserved_padded (isReserved_parameterName field)
  apart h := notMem_of_mem_parameterNamesFrom h (List.mem_singleton_self _)
  distinct := nodup_parameterNamesFrom _ fields
  fewest position field h := by
    obtain ⟨count, hcount, hname, hfewest⟩ :=
      exists_padded_of_getElem? [optionsParameter] h
    rw [List.length_singleton, Nat.add_comm] at hcount
    exact ⟨count, hcount, hname, hfewest⟩

end ContractBinding.Name
