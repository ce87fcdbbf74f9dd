import ContractBinding.Proofs.Json.Part

/-!
# Outlines

The outline of a value is what it is apart from its parts: the keys of an object, the length of a
list, or the value itself. Two values that have the same outlines at the end of every way down
are alike; where they differ in some leaves only, nothing is lost and nothing is added.
-/

namespace ContractBinding.Json

/-- One step down a value. -/
inductive Edge where
  | key (name : String)
  | item (position : Nat)
  deriving DecidableEq, Repr

/-- The part one step down. -/
def Edge.follow? : Edge → Json → Option Json
  | .key name, value => value.get? name
  | .item position, .array items => items[position]?
  | .item _, _ => none

/-- The part at the end of a way down. -/
def at? : List Edge → Json → Option Json
  | [], value => some value
  | edge :: way, value => (edge.follow? value).bind (at? way)

/-- What a value is apart from its parts. -/
inductive Outline where
  | leaf (value : Json)
  | list (length : Nat)
  | object (keys : List String)
  deriving Repr

def outline : Json → Outline
  | .array items => .list items.length
  | .object entries => .object (entries.map Prod.fst)
  | value => .leaf value

/-- The outline of the part at the end of a way down. -/
def outlineAt? (way : List Edge) (value : Json) : Option Outline := (value.at? way).map outline

/-- Two values have the same outlines everywhere, except that they may be different leaves at the
end of some ways down. -/
def AlikeBut (differs : List Edge → Prop) (v w : Json) : Prop :=
  ∀ way, v.outlineAt? way = w.outlineAt? way ∨
    differs way ∧ ∃ a b, v.outlineAt? way = some (.leaf a) ∧ w.outlineAt? way = some (.leaf b)

variable {v w u a b : Json} {differs differs' : List Edge → Prop} {way : List Edge} {edge : Edge}

theorem Edge.follow?_key {name : String} {entries : List (String × Json)} :
    (Edge.key name).follow? (.object entries) = entries.lookup name := rfl

theorem Edge.follow?_item {position : Nat} {items : List Json} :
    (Edge.item position).follow? (.array items) = items[position]? := rfl

theorem outlineAt?_cons : v.outlineAt? (edge :: way) = (edge.follow? v).bind (outlineAt? way) := by
  unfold outlineAt?
  rw [at?]
  cases edge.follow? v <;> rfl

/-- Where two lists have the same keys, what is found under a key stands at one position. -/
theorem lookup_cases {α β : Type} {entries : List (String × α)} {others : List (String × β)}
    (hkeys : others.map Prod.fst = entries.map Prod.fst) (key : String) :
    (entries.lookup key = none ∧ others.lookup key = none) ∨
      ∃ v w, entries.lookup key = some v ∧ others.lookup key = some w ∧
        ((key, v), (key, w)) ∈ entries.zip others := by
  induction entries generalizing others with
  | nil =>
    rw [List.map_nil, List.map_eq_nil_iff] at hkeys
    rw [hkeys]
    exact .inl ⟨rfl, rfl⟩
  | cons e rest ih =>
    obtain ⟨o, others, rfl, ho, hothers⟩ := List.map_eq_cons_iff.1 hkeys
    obtain ⟨k, v⟩ := e
    obtain ⟨k', w⟩ := o
    obtain rfl : k' = k := ho
    rw [List.lookup_cons, List.lookup_cons, List.zip_cons_cons]
    by_cases hk : key = k'
    · subst hk
      rw [beq_self_eq_true]
      exact .inr ⟨v, w, rfl, rfl, List.mem_cons_self ..⟩
    · rw [beq_eq_false_iff_ne.2 hk]
      refine (ih hothers).imp_right ?_
      rintro ⟨v, w, hv, hw, hm⟩
      exact ⟨v, w, hv, hw, List.mem_cons_of_mem _ hm⟩

/-- A step down leads to a part. -/
theorem Edge.part_of_follow? (h : edge.follow? v = some u) : Part u v := by
  cases edge with
  | key name =>
    cases v with
    | object entries =>
      obtain ⟨front, back, rfl, -⟩ := List.lookup_eq_some_iff.1 h
      have hm : (name, u) ∈ front ++ (name, u) :: back := by simp
      exact .entry hm
    | _ => cases h
  | item position =>
    cases v with
    | array items => exact .item (List.mem_of_getElem? h)
    | _ => cases h

/-- A leaf has no parts. -/
theorem Edge.follow?_of_leaf (h : v.outline = .leaf a) : edge.follow? v = none := by
  cases v with
  | array _ | object _ => cases h
  | _ => cases edge <;> rfl

/-- No way down is longer than the value is large. -/
theorem length_le_sizeOf (h : v.at? way = some u) : way.length ≤ sizeOf v := by
  induction way generalizing v with
  | nil => exact Nat.zero_le _
  | cons edge way ih =>
    obtain ⟨part, hpart, hu⟩ := Option.bind_eq_some_iff.1 h
    exact Nat.lt_of_le_of_lt (ih hu) (edge.part_of_follow? hpart).sizeOf_lt

namespace AlikeBut

theorem refl (v : Json) : AlikeBut differs v v := fun _ => .inl rfl

theorem mono (h : AlikeBut differs v w) (hmono : ∀ way, differs way → differs' way) :
    AlikeBut differs' v w :=
  fun way => (h way).imp_right fun ⟨hd, hleaves⟩ => ⟨hmono way hd, hleaves⟩

/-- Any two leaves are alike but for themselves. -/
theorem leaf (hv : v.outline = .leaf a) (hw : w.outline = .leaf b) (hd : differs []) :
    AlikeBut differs v w := by
  intro way
  cases way with
  | nil => exact .inr ⟨hd, a, b, congrArg some hv, congrArg some hw⟩
  | cons edge way =>
    rw [outlineAt?_cons, outlineAt?_cons, edge.follow?_of_leaf hv, edge.follow?_of_leaf hw]
    exact .inl rfl

/-- Lists of one length are alike where their items are. -/
theorem array {items others : List Json} (hlength : items.length = others.length)
    (h : ∀ position v w, items[position]? = some v → others[position]? = some w →
      AlikeBut (fun way => differs (.item position :: way)) v w) :
    AlikeBut differs (.array items) (.array others) := by
  intro way
  cases way with
  | nil => exact .inl (congrArg (some <| Outline.list ·) hlength)
  | cons edge way =>
    rw [outlineAt?_cons, outlineAt?_cons]
    cases edge with
    | key name => exact .inl rfl
    | item position =>
      rw [Edge.follow?_item, Edge.follow?_item]
      rcases Nat.lt_or_ge position items.length with hlt | hge
      · have hv := List.getElem?_eq_getElem hlt
        have hw := List.getElem?_eq_getElem (hlength ▸ hlt)
        rw [hv, hw]
        exact h position _ _ hv hw way
      · rw [List.getElem?_eq_none hge, List.getElem?_eq_none (hlength ▸ hge)]
        exact .inl rfl

/-- Objects of the same keys are alike where what stands under them is. -/
theorem object {entries others : List (String × Json)}
    (hkeys : others.map Prod.fst = entries.map Prod.fst)
    (h : ∀ key v w, entries.lookup key = some v → ((key, v), (key, w)) ∈ entries.zip others →
      AlikeBut (fun way => differs (.key key :: way)) v w) :
    AlikeBut differs (.object entries) (.object others) := by
  intro way
  cases way with
  | nil => exact .inl (congrArg (some <| Outline.object ·) hkeys.symm)
  | cons edge way =>
    rw [outlineAt?_cons, outlineAt?_cons]
    cases edge with
    | item position => exact .inl rfl
    | key name =>
      rw [Edge.follow?_key, Edge.follow?_key]
      rcases lookup_cases hkeys name with ⟨hv, hw⟩ | ⟨v, w, hv, hw, hm⟩
      · rw [hv, hw]
        exact .inl rfl
      · rw [hv, hw]
        exact h name v w hv hm way

/-- The same ways lead down two values that are alike. -/
theorem isSome_outlineAt? (h : AlikeBut differs v w) (way : List Edge) :
    (v.outlineAt? way).isSome = (w.outlineAt? way).isSome := by
  rcases h way with h | ⟨-, a, b, hv, hw⟩
  · rw [h]
  · rw [hv, hw]
    rfl

/-- No value is alike to a part of itself: the step that leads there could be taken without end. -/
theorem follow?_ne_some (h : AlikeBut differs v w) (edge : Edge) : edge.follow? w ≠ some v := by
  intro hv
  have hways (n : Nat) : (w.outlineAt? (List.replicate n edge)).isSome = true := by
    induction n with
    | zero => rfl
    | succ n ih => rwa [List.replicate_succ, outlineAt?_cons, hv, Option.bind_some,
        h.isSome_outlineAt?]
  have hlong := hways (sizeOf w + 1)
  rw [outlineAt?, Option.isSome_map] at hlong
  obtain ⟨u, hu⟩ := Option.isSome_iff_exists.1 hlong
  have hlength := length_le_sizeOf hu
  rw [List.length_replicate] at hlength
  omega

end AlikeBut

end ContractBinding.Json
