/-!
# Entries in key order

A finite map from texts is a list of entries in strictly increasing key order; texts are
ordered by code point, which is also the order of their UTF-8 bytes. Inserting keeps the
order, and looking a key up sees the last value inserted under it.
-/

namespace ContractBinding.Keyed

universe u

variable {α : Type u}

/-- Put `value` under `key`, in place of an earlier value. -/
def insert (key : String) (value : α) : List (String × α) → List (String × α)
  | [] => [(key, value)]
  | (k, v) :: rest =>
    if key < k then (key, value) :: (k, v) :: rest
    else if key = k then (key, value) :: rest
    else (k, v) :: insert key value rest

/-- The entries in key order; of several under one key the last one counts. -/
def ofList (entries : List (String × α)) : List (String × α) :=
  entries.foldl (fun map (key, value) => insert key value map) []

/-- The entries without what is under `key`. -/
def erase (key : String) (entries : List (String × α)) : List (String × α) :=
  entries.filter fun e => e.1 != key

/-- The keys increase strictly, so no key occurs twice. -/
def Sorted (entries : List (String × α)) : Prop :=
  (entries.map Prod.fst).Pairwise (· < ·)

theorem sorted_nil : Sorted ([] : List (String × α)) := List.Pairwise.nil

/-- The inserted key reads back the inserted value. -/
theorem lookup_insert_self (key : String) (value : α) (entries : List (String × α)) :
    (insert key value entries).lookup key = some value := by
  induction entries with
  | nil => simp [insert]
  | cons e rest ih =>
    obtain ⟨k, v⟩ := e
    simp only [insert]
    split
    · simp
    · split
      · simp
      · next hne =>
        rw [List.lookup_cons, beq_eq_false_iff_ne.2 hne]
        exact ih

/-- Other keys keep their values. -/
theorem lookup_insert_of_ne {key other : String} (h : other ≠ key) (value : α)
    (entries : List (String × α)) :
    (insert key value entries).lookup other = entries.lookup other := by
  induction entries with
  | nil => simp [insert, List.lookup_cons, beq_eq_false_iff_ne.2 h]
  | cons e rest ih =>
    obtain ⟨k, v⟩ := e
    simp only [insert]
    split
    · rw [List.lookup_cons, beq_eq_false_iff_ne.2 h]
    · split
      · next hk =>
        subst hk
        rw [List.lookup_cons, List.lookup_cons, beq_eq_false_iff_ne.2 h]
      · rw [List.lookup_cons, List.lookup_cons, ih]

/-- Other keys keep their values when one is erased. -/
theorem lookup_erase_of_ne {key other : String} (h : other ≠ key) (entries : List (String × α)) :
    (erase key entries).lookup other = entries.lookup other := by
  induction entries with
  | nil => rfl
  | cons e rest ih =>
    obtain ⟨k, v⟩ := e
    unfold erase at ih ⊢
    by_cases hk : k = key
    · subst hk
      rw [List.filter_cons_of_neg (by simp), ih, List.lookup_cons, beq_eq_false_iff_ne.2 h]
    · rw [List.filter_cons_of_pos (by simpa using hk), List.lookup_cons, List.lookup_cons, ih]

/-- Of several values under one key the last one is found. -/
theorem lookup_ofList (key : String) (entries : List (String × α)) :
    (ofList entries).lookup key = entries.reverse.lookup key := by
  suffices ∀ es map : List (String × α),
      (es.foldl (fun map (k, v) => insert k v map) map).lookup key =
        (es.reverse.lookup key).or (map.lookup key) by
    simpa [ofList] using this entries []
  intro es
  induction es with
  | nil => simp
  | cons e rest ih =>
    intro map
    obtain ⟨k, v⟩ := e
    rw [List.foldl_cons, ih, List.reverse_cons, List.lookup_append, Option.or_assoc]
    congr 1
    by_cases hk : key = k
    · subst hk
      simp [lookup_insert_self]
    · rw [lookup_insert_of_ne hk, List.lookup_cons, beq_eq_false_iff_ne.2 hk]
      simp

private theorem mem_keys_insert {key k : String} {value : α} {entries : List (String × α)}
    (h : k ∈ (insert key value entries).map Prod.fst) : k = key ∨ k ∈ entries.map Prod.fst := by
  induction entries with
  | nil => simp_all [insert]
  | cons e rest ih =>
    obtain ⟨k', v⟩ := e
    simp only [insert] at h
    split at h
    · simp_all
    · split at h
      · simp_all
      · simp only [List.map_cons, List.mem_cons] at h ⊢
        rcases h with h | h
        · exact Or.inr (Or.inl h)
        · rcases ih h with h | h
          · exact Or.inl h
          · exact Or.inr (Or.inr h)

/-- Insertion keeps the key order. -/
theorem sorted_insert (key : String) (value : α) {entries : List (String × α)}
    (h : Sorted entries) : Sorted (insert key value entries) := by
  induction entries with
  | nil => simp [Sorted, insert]
  | cons e rest ih =>
    obtain ⟨k, v⟩ := e
    simp only [Sorted, List.map_cons, List.pairwise_cons] at h
    simp only [insert]
    split
    · next hlt =>
      simp only [Sorted, List.map_cons, List.pairwise_cons, List.mem_cons]
      refine ⟨?_, h⟩
      rintro k' (rfl | hk')
      · exact hlt
      · exact String.lt_trans hlt (h.1 k' hk')
    · split
      · next heq =>
        subst heq
        simpa [Sorted] using h
      · next hnlt hne =>
        simp only [Sorted, List.map_cons, List.pairwise_cons]
        refine ⟨?_, ih h.2⟩
        intro k' hk'
        rcases mem_keys_insert hk' with rfl | hk'
        · rcases String.le_total k' k with hle | hle
          · exact absurd (Std.lt_of_le_of_ne hle hne) hnlt
          · exact Std.lt_of_le_of_ne hle (Ne.symm hne)
        · exact h.1 k' hk'

/-- Entries put in order are in order. -/
theorem sorted_ofList (entries : List (String × α)) : Sorted (ofList entries) := by
  suffices ∀ (es map : List (String × α)), Sorted map →
      Sorted (es.foldl (fun map (key, value) => insert key value map) map) from
    this entries [] sorted_nil
  intro es
  induction es with
  | nil => exact fun _ h => h
  | cons e rest ih => exact fun map h => ih _ (sorted_insert e.1 e.2 h)

end ContractBinding.Keyed
