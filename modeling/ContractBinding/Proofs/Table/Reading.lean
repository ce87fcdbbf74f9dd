import ContractBinding.Proofs.Abi.Faithful
import ContractBinding.Proofs.Table.Rich

/-!
# How values are read

The reading of a type follows from what the type stands for and from whether it leads to richer
values. A value is then read in one step, from values that its parts are read as; where it
stands matters to the faults alone.
-/

namespace ContractBinding.Table

open Abi (Graph ResolvedTypes)
open Host (ValuePath)

variable {doc : Abi.Document} {g : Graph} {expr t : TypeExpr}

/-- How values of a type should be read: by what it stands for, if it leads to richer values. -/
inductive ReadAs (g : Graph) (expr : TypeExpr) : Reading → Prop where
  | asIs (hr : ¬ Rich g expr) : ReadAs g expr .asIs
  | scalar {p : Primitive} {kind : Reinterpretation} (ht : g.StandsFor expr (.primitive p))
    (hk : p.reinterpretation? = some kind) : ReadAs g expr (.scalar kind)
  | items {element : TypeExpr} (hr : Rich g expr) (ht : g.StandsFor expr (.array element)) :
    ReadAs g expr (.items element)
  | fields {name : String} {s : Abi.Struct} (hr : Rich g expr)
    (ht : g.StandsFor expr (.named name)) (hs : g.struct? name = some s) :
    ReadAs g expr (.fields s)
  | branches {name : String} {v : Abi.Variant} (ht : g.StandsFor expr (.named name))
    (hv : g.variant? name = some v) : ReadAs g expr (.branches v)

/-- Values of a type that leads to no richer ones are read as they are. -/
theorem reading_of_not_rich (hg : ResolvedTypes doc g) (hr : ¬ Rich g expr) :
    (Coercer.ofGraph g).reading expr = .asIs := by
  have hplain := mt (isRich_iff hg).1 hr
  unfold Coercer.reading
  simp [hplain]

/-- Values of a type that leads to richer ones are read by what the type stands for. -/
theorem reading_of_rich (hg : ResolvedTypes doc g) (hr : Rich g expr) :
    (Coercer.ofGraph g).reading expr = match g.behind expr with
      | .primitive p => match p.reinterpretation? with
        | some kind => .scalar kind
        | none => .asIs
      | .array element => .items element
      | .named name => match g.struct? name with
        | some s => .fields s
        | none => match g.variant? name with
          | some v => .branches v
          | none => .asIs := by
  have hrich := (isRich_iff hg).2 hr
  unfold Coercer.reading
  rw [hrich]
  rfl

/-- A coercer reads values as they should be read. -/
theorem readAs_reading (hg : ResolvedTypes doc g) (expr : TypeExpr) :
    ReadAs g expr ((Coercer.ofGraph g).reading expr) := by
  by_cases hr : Rich g expr
  · have ht := hg.standsFor_behind expr
    have hrt := (rich_iff_of_standsFor ht).1 hr
    rw [reading_of_rich hg hr]
    generalize g.behind expr = t at ht hrt
    cases hrt with
    | scalar hk =>
      simp only [hk]
      exact .scalar ht hk
    | items _ => exact .items hr ht
    | link ha _ => simp [ht.alias?_eq_none] at ha
    | field hs _ _ =>
      simp only [hs]
      exact .fields hr ht hs
    | branches hv =>
      simp only [(Graph.others_of_variant? hv).2, hv]
      exact .branches ht hv
  · rw [reading_of_not_rich hg hr]
    exact .asIs hr

/-- Values should be read in one way only. -/
theorem reading_eq_iff (hg : ResolvedTypes doc g) {reading : Reading} :
    (Coercer.ofGraph g).reading expr = reading ↔ ReadAs g expr reading := by
  constructor
  · rintro rfl
    exact readAs_reading hg expr
  · intro h
    cases h with
    | asIs hr => exact reading_of_not_rich hg hr
    | scalar ht hk =>
      have hr := (rich_iff_of_standsFor ht).2 (.scalar hk)
      rw [reading_of_rich hg hr, hg.behind_eq_iff.2 ht]
      simp only [hk]
    | items hr ht => rw [reading_of_rich hg hr, hg.behind_eq_iff.2 ht]
    | fields hr ht hs =>
      rw [reading_of_rich hg hr, hg.behind_eq_iff.2 ht]
      simp only [hs]
    | branches ht hv =>
      have hr := (rich_iff_of_standsFor ht).2 (.branches hv)
      rw [reading_of_rich hg hr, hg.behind_eq_iff.2 ht]
      simp only [(Graph.others_of_variant? hv).2, hv]

namespace Coercer

variable {c : Coercer} {place : ValuePath} {v : Json} {w : HostValue}

/-- What a struct makes of the value under a key. -/
def coerceEntry (c : Coercer) (place : ValuePath) (s : Abi.Struct) (key : String) (value : Json) :
    Except CallFault HostValue :=
  match s.field? key with
  | none => .ok (.wire value)
  | some f =>
    if f.type.optional && value.isNull then .ok (.wire value)
    else c.coerce (place.push (.field key)) f.type.expr value

theorem coerceEntries_eq_map (s : Abi.Struct) (entries : List (String × Json)) :
    c.coerceEntries place s entries =
      entries.map fun e => (e.1, c.coerceEntry place s e.1 e.2) := by
  induction entries with
  | nil => rfl
  | cons e rest ih =>
    rw [coerceEntries, ih]
    rfl

/-- The items of a list that is read are read each for itself. -/
theorem forall₂_of_coerceItems {element : TypeExpr} {position : Nat} {items : List Json}
    {values : List HostValue} (h : c.coerceItems place element position items = .ok values) :
    List.Forall₂ (fun v w => ∃ place, c.coerce place element v = .ok w) items values := by
  induction items generalizing position values with
  | nil =>
    cases h
    exact .nil
  | cons item rest ih =>
    rw [coerceItems] at h
    simp only [Outcome.bind_eq_ok_iff, Outcome.pure_eq_ok_iff] at h
    obtain ⟨value, hvalue, others, hothers, rfl⟩ := h
    exact .cons ⟨_, hvalue⟩ (ih hothers)

/-- A list is read where its items are, wherever they stand. -/
theorem coerceItems_of_forall₂ {element : TypeExpr} {position : Nat} {items : List Json}
    {values : List HostValue}
    (h : List.Forall₂ (fun v w => ∀ place, c.coerce place element v = .ok w) items values) :
    c.coerceItems place element position items = .ok values := by
  induction h generalizing position with
  | nil => rfl
  | cons hvalue _ ih =>
    rw [coerceItems, hvalue, ih]
    rfl

/-- A struct may lack a value for a field. -/
def MayLack (c : Coercer) (f : Abi.Field) : Prop :=
  f.type.binaryExtension = true ∨ f.type.optional = true ∨ c.isRich f.type.expr = false

-- Only a field without an entry is checked: what an entry holds has been read.
private theorem checkField_eq_ok_iff {read : List (String × Except CallFault HostValue)}
    (hread : ∀ key result, (key, result) ∈ read → ∃ w, result = .ok w) {f : Abi.Field} :
    c.checkField place read f = .ok () ↔ (f.name ∉ read.map Prod.fst → c.MayLack f) := by
  unfold checkField MayLack
  rw [← Abi.isSome_lookup_iff]
  cases hl : read.lookup f.name with
  | some result =>
    obtain ⟨front, back, rfl, -⟩ := List.lookup_eq_some_iff.1 hl
    obtain ⟨w, rfl⟩ := hread f.name result (by simp)
    simp [Except.map]
  | none =>
    cases f.type.binaryExtension <;> cases f.type.optional <;> cases c.isRich f.type.expr <;> simp

/-- The entries of a struct are collected when each has been read and no field lacks a value
that needs one. -/
theorem collect_eq_ok_iff {s : Abi.Struct} {entries : List (String × Json)}
    {values : List (String × HostValue)} :
    c.collect place s (c.coerceEntries place s entries) = .ok values ↔
      List.Forall₂ (fun e w => w.1 = e.1 ∧ c.coerceEntry place s e.1 e.2 = .ok w.2)
        entries values ∧
      ∀ f ∈ s.fields, f.name ∉ entries.map Prod.fst → c.MayLack f := by
  have hpairs : (c.coerceEntries place s entries).mapM
        (fun e : String × Except CallFault HostValue => e.2.map (e.1, ·)) = .ok values ↔
      List.Forall₂ (fun e w => w.1 = e.1 ∧ c.coerceEntry place s e.1 e.2 = .ok w.2)
        entries values := by
    rw [Outcome.mapM_eq_ok_iff, coerceEntries_eq_map, List.forall₂_map_left_iff]
    simp only [Outcome.map_mk_eq_ok_iff]
  have hkeys : (c.coerceEntries place s entries).map Prod.fst = entries.map Prod.fst := by
    rw [coerceEntries_eq_map, List.map_map]
    rfl
  have hchecks (hp : List.Forall₂
      (fun e w => w.1 = e.1 ∧ c.coerceEntry place s e.1 e.2 = .ok w.2) entries values)
      (f : Abi.Field) : c.checkField place (c.coerceEntries place s entries) f = .ok () ↔
        (f.name ∉ entries.map Prod.fst → c.MayLack f) := by
    rw [← hkeys]
    apply checkField_eq_ok_iff
    intro key result hm
    rw [coerceEntries_eq_map] at hm
    obtain ⟨e, he, hpair⟩ := List.mem_map.1 hm
    cases hpair
    obtain ⟨w, -, -, hw⟩ := Outcome.exists_mem_right hp he
    exact ⟨w.2, hw⟩
  unfold collect
  rw [Outcome.bind_eq_ok_iff]
  constructor
  · rintro ⟨_, hfields, hmap⟩
    have hp := hpairs.1 hmap
    exact ⟨hp, fun f hf => (hchecks hp f).1 (Outcome.forM_eq_ok_iff.1 hfields f hf)⟩
  · rintro ⟨hp, hfields⟩
    refine ⟨(), Outcome.forM_eq_ok_iff.2 fun f hf => (hchecks hp f).2 (hfields f hf), ?_⟩
    exact hpairs.2 hp

theorem coerce_of_asIs (h : c.reading expr = .asIs) : c.coerce place expr v = .ok (.wire v) := by
  unfold coerce
  rw [h]

theorem coerce_of_scalar {kind : Reinterpretation} (h : c.reading expr = .scalar kind) :
    c.coerce place expr v = readScalar kind place v := by
  unfold coerce
  rw [h]

/-- A type of lists reads lists of what its elements read. -/
theorem coerce_of_items {element : TypeExpr} (h : c.reading expr = .items element) :
    c.coerce place expr v = .ok w ↔ ∃ items values, v = .array items ∧ w = .array values ∧
      c.coerceItems place element 0 items = .ok values := by
  unfold coerce
  rw [h]
  cases v with
  | array items =>
    dsimp only
    rw [Outcome.map_eq_ok_iff]
    constructor
    · rintro ⟨values, hvalues, rfl⟩
      exact ⟨items, values, rfl, rfl, hvalues⟩
    · rintro ⟨_, values, hv, rfl, hvalues⟩
      cases hv
      exact ⟨values, hvalues, rfl⟩
  | _ => simp

/-- A struct reads objects of what its fields read. -/
theorem coerce_of_fields {s : Abi.Struct} (h : c.reading expr = .fields s) :
    c.coerce place expr v = .ok w ↔ ∃ entries values, v = .object entries ∧ w = .struct values ∧
      c.collect place s (c.coerceEntries place s entries) = .ok values := by
  unfold coerce
  rw [h]
  cases v with
  | object entries =>
    dsimp only
    rw [Outcome.map_eq_ok_iff]
    constructor
    · rintro ⟨values, hvalues, rfl⟩
      exact ⟨entries, values, rfl, rfl, hvalues⟩
    · rintro ⟨_, values, hv, rfl, hvalues⟩
      cases hv
      exact ⟨values, hvalues, rfl⟩
  | _ => simp

/-- A variant reads pairs of a tag and of what the tagged branch reads. -/
theorem coerce_of_branches {variant : Abi.Variant} (h : c.reading expr = .branches variant) :
    c.coerce place expr v = .ok w ↔ ∃ tag payload b inner, v = .array [tag, payload] ∧
      w = .variant b.index inner ∧ tagged? variant tag = some b ∧
      c.coerce (place.push (.branch b.index)) b.type payload = .ok inner := by
  conv_lhs => unfold coerce
  rw [h]
  cases v with
  | array items =>
    rcases items with _ | ⟨tag, _ | ⟨payload, _ | ⟨extra, rest⟩⟩⟩
    · simp
    · simp
    · cases htag : tagged? variant tag with
      | none =>
        simp only [htag]
        refine iff_of_false (by simp) ?_
        rintro ⟨_, _, b, inner, hv, -, hb, -⟩
        cases hv
        simp [htag] at hb
      | some b =>
        simp only [htag]
        rw [Outcome.map_eq_ok_iff]
        constructor
        · rintro ⟨inner, hinner, rfl⟩
          exact ⟨tag, payload, b, inner, rfl, rfl, htag, hinner⟩
        · rintro ⟨_, _, b', inner, hv, rfl, hb, hinner⟩
          cases hv
          cases htag.symm.trans hb
          exact ⟨inner, hinner, rfl⟩
    · simp
  | null | bool _ | int _ | double _ | text _ | object _ => simp

end Coercer

end ContractBinding.Table
