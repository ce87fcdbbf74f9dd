import ContractBinding.Abi.Resolve
import ContractBinding.Proofs.Abi.WellFormed
import ContractBinding.Proofs.Outcome
import Mathlib.Data.List.Nodup

/-!
# Declared names

The names of a document are accepted when each is present and none occurs twice. The index of the
declared types then has one entry for every name, and the entry gives its place in the document.
-/

namespace ContractBinding.Abi

/-- What is left to check after one new name has been seen. The checks keep the names seen in
different orders, so only membership counts. -/
theorem distinct_cons_iff {name : String} {rest earlier later : List String}
    (hnew : name ∉ earlier) (hlater : ∀ other, other ∈ later ↔ other = name ∨ other ∈ earlier) :
    (rest.Nodup ∧ ∀ other ∈ rest, other ∉ later) ↔
      (name :: rest).Nodup ∧ ∀ other ∈ name :: rest, other ∉ earlier := by
  rw [List.nodup_cons, List.forall_mem_cons]
  constructor
  · rintro ⟨hdistinct, hapart⟩
    refine ⟨⟨?_, hdistinct⟩, hnew, ?_⟩
    · intro hm
      exact hapart name hm ((hlater name).2 (Or.inl rfl))
    · intro other hm he
      exact hapart other hm ((hlater other).2 (Or.inr he))
  · rintro ⟨⟨hfresh, hdistinct⟩, -, hapart⟩
    refine ⟨hdistinct, ?_⟩
    intro other hm hl
    rcases (hlater other).1 hl with rfl | he
    · exact hfresh hm
    · exact hapart other hm he

/-- Entries of one kind are accepted when their names are present, distinct and new. -/
theorem checkUnique_eq_ok_iff {kind : EntryKind} {earlier names : List String} :
    checkUnique kind earlier names = .ok () ↔
      (∀ name ∈ names, Text.isBlankText name = false) ∧ names.Nodup ∧
        ∀ name ∈ names, name ∉ earlier := by
  induction names generalizing earlier with
  | nil => simp [checkUnique]
  | cons name rest ih =>
    unfold checkUnique
    split
    · next hb => simp [hb]
    · next hb =>
      split
      · next he =>
        have hmem : name ∈ earlier := by simpa using he
        simp [hmem]
      · next he =>
        have hnew : name ∉ earlier := by simpa using he
        rw [ih, distinct_cons_iff hnew (by simp), List.forall_mem_cons (a := name) (l := rest)]
        simp [hb]

/-- Declared types are accepted when their names are present, distinct and new. -/
theorem checkDeclarations_eq_ok_iff {earlier index : Index} :
    checkDeclarations earlier index = .ok () ↔
      (∀ name ∈ index.map Prod.fst, Text.isBlankText name = false) ∧
        (index.map Prod.fst).Nodup ∧ ∀ name ∈ index.map Prod.fst, name ∉ earlier.map Prod.fst := by
  induction index generalizing earlier with
  | nil => simp [checkDeclarations]
  | cons entry rest ih =>
    obtain ⟨name, decl⟩ := entry
    unfold checkDeclarations
    rw [List.map_cons]
    split
    · next hb => simp [hb]
    · next hb =>
      cases hl : earlier.lookup name with
      | some other =>
        have hmem : name ∈ earlier.map Prod.fst := by
          obtain ⟨front, back, rfl, -⟩ := List.lookup_eq_some_iff.1 hl
          simp
        exact iff_of_false (by simp) fun h => h.2.2 name (List.mem_cons_self ..) hmem
      | none =>
        have hnew : name ∉ earlier.map Prod.fst := by
          rintro hm
          obtain ⟨e, he, rfl⟩ := List.mem_map.1 hm
          simpa using List.lookup_eq_none_iff.1 hl e he
        have hlater (other : String) : other ∈ (earlier ++ [(name, decl)]).map Prod.fst ↔
            other = name ∨ other ∈ earlier.map Prod.fst := by
          rw [List.map_append, List.mem_append, or_comm]
          simp
        dsimp only
        rw [ih, distinct_cons_iff hnew hlater, List.forall_mem_cons (a := name)]
        simp [hb]

/-- A name has an entry exactly when it is one of the names. -/
theorem isSome_lookup_iff {α : Type} {entries : List (String × α)} {name : String} :
    (entries.lookup name).isSome = true ↔ name ∈ entries.map Prod.fst := by
  rw [List.lookup_isSome_iff, List.mem_map]
  constructor
  · rintro ⟨e, he, hn⟩
    exact ⟨e, he, (beq_iff_eq.1 hn).symm⟩
  · rintro ⟨e, he, rfl⟩
    exact ⟨e, he, beq_self_eq_true _⟩

/-- Where no name occurs twice, an entry is found under its name. -/
theorem lookup_eq_some_iff_mem {α : Type} {entries : List (String × α)}
    (hd : (entries.map Prod.fst).Nodup) {name : String} {value : α} :
    entries.lookup name = some value ↔ (name, value) ∈ entries := by
  induction entries with
  | nil => simp
  | cons entry rest ih =>
    obtain ⟨other, first⟩ := entry
    rw [List.map_cons, List.nodup_cons] at hd
    rw [List.lookup_cons, List.mem_cons]
    by_cases h : name = other
    · subst h
      have hfresh : (name, value) ∉ rest := fun hm => hd.1 (List.mem_map.2 ⟨_, hm, rfl⟩)
      simp [hfresh, eq_comm]
    · rw [beq_eq_false_iff_ne.2 h]
      simp [h, ih hd.2]

/-- Where no name occurs twice, putting entries into key order loses none. -/
theorem lookup_ofList_of_nodup {α : Type} {entries : List (String × α)}
    (hd : (entries.map Prod.fst).Nodup) (name : String) :
    (Keyed.ofList entries).lookup name = entries.lookup name := by
  have hr : (entries.reverse.map Prod.fst).Nodup := by
    rw [List.map_reverse, List.nodup_reverse]
    exact hd
  ext value
  rw [Keyed.lookup_ofList, lookup_eq_some_iff_mem hr, lookup_eq_some_iff_mem hd,
    List.mem_reverse]

/-- Where no name occurs twice, an entry of a list is found under its name. -/
theorem find?_name_eq_some_iff {α : Type} {name : α → String} {entries : List α}
    (hd : (entries.map name).Nodup) {n : String} {entry : α} :
    entries.find? (fun e => name e = n) = some entry ↔ entry ∈ entries ∧ name entry = n := by
  constructor
  · intro h
    exact ⟨List.mem_of_find?_eq_some h, by simpa using List.find?_some h⟩
  · rintro ⟨hm, rfl⟩
    cases h : entries.find? (fun e => name e = name entry) with
    | none => simpa using List.find?_eq_none.1 h entry hm
    | some other =>
      have hname : name other = name entry := by simpa using List.find?_some h
      rw [List.inj_on_of_nodup_map hd (List.mem_of_find?_eq_some h) hm hname]

/-- A list has no entry of a name exactly when none is found. -/
theorem find?_name_eq_none_iff {α : Type} {name : α → String} {entries : List α} {n : String} :
    entries.find? (fun e => name e = n) = none ↔ n ∉ entries.map name := by
  rw [List.find?_eq_none]
  simp

private theorem map_fst_mapIdx {α : Type} (name : α → String) (decl : Nat → Decl) (xs : List α) :
    (xs.mapIdx fun i x => (name x, decl i)).map Prod.fst = xs.map name := by
  rw [List.mapIdx_eq_zipIdx_map, List.map_map]
  change (xs.zipIdx.map (name ∘ Prod.fst)) = _
  rw [← List.map_map, List.zipIdx_map_fst]

private theorem mem_mapIdx_iff {α : Type} (name : α → String) (decl : Nat → Decl) (xs : List α)
    (n : String) (d : Decl) :
    (n, d) ∈ xs.mapIdx (fun i x => (name x, decl i)) ↔
      ∃ i, decl i = d ∧ xs[i]?.map name = some n := by
  rw [List.mem_mapIdx]
  constructor
  · rintro ⟨i, hi, he⟩
    obtain ⟨hn, hd⟩ := Prod.mk.inj he
    exact ⟨i, hd, by rw [List.getElem?_eq_getElem hi, Option.map_some, hn]⟩
  · rintro ⟨i, hd, hn⟩
    obtain ⟨x, hx, hn⟩ := Option.map_eq_some_iff.1 hn
    obtain ⟨hi, rfl⟩ := List.getElem?_eq_some_iff.1 hx
    exact ⟨i, hi, by rw [hn, hd]⟩

namespace Document

variable {doc : Document}

/-- The name that the document gives to the entry at a place. -/
def nameAt? (doc : Document) : Decl → Option String
  | .alias position => doc.aliases[position]?.map AliasDecl.name
  | .struct position => doc.structs[position]?.map StructDecl.name
  | .variant position => doc.variants[position]?.map VariantDecl.name

/-- Where no type name occurs twice, no name of an alias does. -/
theorem aliases_distinct (hd : doc.typeNames.Nodup) : (doc.aliases.map AliasDecl.name).Nodup :=
  (List.nodup_append.1 (List.nodup_append.1 hd).1).1

/-- Where no type name occurs twice, no name of a struct does. -/
theorem structs_distinct (hd : doc.typeNames.Nodup) : (doc.structs.map StructDecl.name).Nodup :=
  (List.nodup_append.1 (List.nodup_append.1 hd).1).2.1

/-- The index has the names of the document, in their order. -/
theorem map_fst_declarations : doc.declarations.map Prod.fst = doc.typeNames := by
  simp only [declarations, typeNames, List.map_append, map_fst_mapIdx]

/-- An entry of the index has the name of the entry at its place. -/
theorem mem_declarations_iff {name : String} {decl : Decl} :
    (name, decl) ∈ doc.declarations ↔ doc.nameAt? decl = some name := by
  rw [declarations, List.mem_append, List.mem_append, mem_mapIdx_iff, mem_mapIdx_iff,
    mem_mapIdx_iff]
  cases decl <;> simp [nameAt?]

/-- In a document of distinct names, a name is found where the document has it. -/
theorem lookup_declarations_iff (hd : doc.typeNames.Nodup) {name : String} {decl : Decl} :
    doc.declarations.lookup name = some decl ↔ doc.nameAt? decl = some name := by
  rw [lookup_eq_some_iff_mem (map_fst_declarations ▸ hd), mem_declarations_iff]

/-- A name is found exactly when the document declares it. -/
theorem isSome_lookup_declarations_iff {name : String} :
    (doc.declarations.lookup name).isSome = true ↔ name ∈ doc.typeNames := by
  rw [isSome_lookup_iff, map_fst_declarations]

end Document

end ContractBinding.Abi
