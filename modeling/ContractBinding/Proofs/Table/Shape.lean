import ContractBinding.Proofs.Json.Part
import ContractBinding.Proofs.Table.Reading

/-!
# Shapes of row values

What a value that has been read looks like, by its type: truth values, moments and amounts where
the type has them, lists, structs and variants around these, and everything else as it came.
-/

namespace ContractBinding.Table

open Abi (Graph ResolvedTypes)
open Host (ValuePath)

/-- What stands for a truth value in a row. -/
inductive IsFlag : Json → Bool → Prop where
  | bool (b : Bool) : IsFlag (.bool b) b
  | zero : IsFlag (.int 0) false
  | one : IsFlag (.int 1) true

/-- A host value has the shape of a type and says what a value of a row says. -/
inductive Shaped (g : Graph) : TypeExpr → Json → HostValue → Prop where
  /-- What leads to no richer value is not touched. -/
  | asIs {expr : TypeExpr} {v : Json} (hr : ¬ Rich g expr) : Shaped g expr v (.wire v)
  | flag {expr : TypeExpr} {v : Json} {b : Bool} (ht : g.StandsFor expr (.primitive .bool))
    (hv : IsFlag v b) : Shaped g expr v (.bool b)
  | moment {expr : TypeExpr} {text : String} {m : Time.Moment}
    (ht : g.StandsFor expr (.primitive .timePointSec)) (hm : Time.Moment.parse? text = some m) :
    Shaped g expr (.text text) (.moment m)
  | asset {expr : TypeExpr} {text : String} {a : Token.Asset}
    (ht : g.StandsFor expr (.primitive .asset)) (ha : Token.Asset.parse text = .ok a) :
    Shaped g expr (.text text) (.asset a)
  | items {expr element : TypeExpr} {items : List Json} {values : List HostValue}
    (hr : Rich g expr) (ht : g.StandsFor expr (.array element))
    (hlength : values.length = items.length)
    (hitems : ∀ v w, (v, w) ∈ items.zip values → Shaped g element v w) :
    Shaped g expr (.array items) (.array values)
  | fields {expr : TypeExpr} {name : String} {s : Abi.Struct} {entries : List (String × Json)}
    {values : List (String × HostValue)} (hr : Rich g expr)
    (ht : g.StandsFor expr (.named name)) (hs : g.struct? name = some s)
    (hkeys : values.map Prod.fst = entries.map Prod.fst)
    (hdeclared : ∀ f ∈ s.fields, ∀ v w, ((f.name, v), (f.name, w)) ∈ entries.zip values →
      ¬ (f.type.optional = true ∧ v = .null) → Shaped g f.type.expr v w)
    (hnull : ∀ f ∈ s.fields, ∀ w, ((f.name, .null), (f.name, w)) ∈ entries.zip values →
      f.type.optional = true → w = .wire .null)
    (hother : ∀ key v w, ((key, v), (key, w)) ∈ entries.zip values →
      key ∉ s.fields.map Abi.Field.name → w = .wire v)
    (hrequired : ∀ f ∈ s.fields, f.type.binaryExtension = false → f.type.optional = false →
      Rich g f.type.expr → f.name ∈ values.map Prod.fst) :
    Shaped g expr (.object entries) (.struct values)
  | branch {expr : TypeExpr} {name : String} {variant : Abi.Variant} {tag payload : Json}
    {b : Abi.Branch} {value : HostValue} {position : Nat} (ht : g.StandsFor expr (.named name))
    (hv : g.variant? name = some variant) (htag : tagged? variant tag = some b)
    (hb : variant.branches[position]? = some b) (hvalue : Shaped g b.type payload value) :
    Shaped g expr (.array [tag, payload]) (.variant position value)

variable {doc : Abi.Document} {g : Graph} {place : ValuePath} {expr : TypeExpr} {v : Json}
  {value : HostValue}

/-- Truth values are read from what stands for them. -/
theorem readScalar_bool :
    readScalar .bool place v = .ok value ↔ ∃ b, IsFlag v b ∧ value = .bool b := by
  constructor
  · intro h
    unfold readScalar at h
    split at h
    · next b _ =>
      cases h
      exact ⟨b, .bool b, rfl⟩
    · cases h
      exact ⟨false, .zero, rfl⟩
    · cases h
      exact ⟨true, .one, rfl⟩
    all_goals simp_all
  · rintro ⟨b, hflag, rfl⟩
    cases hflag with
    | bool b => rfl
    | zero => rfl
    | one => rfl

/-- Moments are read from their texts. -/
theorem readScalar_timePointSec : readScalar .timePointSec place v = .ok value ↔
    ∃ text m, v = .text text ∧ Time.Moment.parse? text = some m ∧ value = .moment m := by
  cases v with
  | text text =>
    simp only [readScalar, Json.text?, Option.bind_some]
    cases hm : Time.Moment.parse? text <;> simp [hm, eq_comm]
  | _ => simp [readScalar, Json.text?]

/-- Amounts are read from their texts. -/
theorem readScalar_asset : readScalar .asset place v = .ok value ↔
    ∃ text a, v = .text text ∧ Token.Asset.parse text = .ok a ∧ value = .asset a := by
  cases v with
  | text text =>
    simp only [readScalar, Json.text?, Option.bind_some]
    cases ha : Token.Asset.parse text <;> simp [ha, Except.toOption, eq_comm]
  | _ => simp [readScalar, Json.text?]

/-- The built-in type of a kind of richer values. -/
def builtIn : Reinterpretation → Primitive
  | .bool => .bool
  | .timePointSec => .timePointSec
  | .asset => .asset

/-- Each kind of richer values has one built-in type. -/
theorem eq_builtIn {p : Primitive} {kind : Reinterpretation}
    (h : p.reinterpretation? = some kind) : p = builtIn kind := by
  cases p <;> cases h <;> rfl

/-- A tag selects a branch: a text selects the first branch whose type is written so, and a whole
number the branch at this position. -/
inductive Selects (variant : Abi.Variant) : Json → Abi.Branch → Prop where
  | typeText {b : Abi.Branch} {before after : List Abi.Branch}
    (h : variant.branches = before ++ b :: after)
    (hfirst : ∀ other ∈ before, other.type.display ≠ b.type.display) :
    Selects variant (.text b.type.display) b
  | position {b : Abi.Branch} {position : Nat} (h : variant.branches[position]? = some b) :
    Selects variant (.int position) b

/-- A tag is looked up as the branch that it selects. -/
theorem tagged?_eq_some_iff {variant : Abi.Variant} {tag : Json} {b : Abi.Branch} :
    tagged? variant tag = some b ↔ Selects variant tag b := by
  constructor
  · intro h
    cases tag with
    | text name =>
      obtain ⟨hname, before, after, hbranches, hfirst⟩ := List.find?_eq_some_iff_append.1 h
      obtain rfl := of_decide_eq_true hname
      exact .typeText hbranches fun other ho => by simpa using hfirst other ho
    | int n =>
      obtain ⟨position, hposition, hb⟩ := Option.bind_eq_some_iff.1 h
      obtain ⟨hn, hposition⟩ := Option.ite_none_right_eq_some.1 hposition
      cases hposition
      rw [← Int.toNat_of_nonneg hn]
      exact .position hb
    | null | bool _ | double _ | array _ | object _ => cases h
  · intro h
    cases h with
    | typeText hbranches hfirst =>
      refine List.find?_eq_some_iff_append.2 ⟨by simp, _, _, hbranches, ?_⟩
      simpa using hfirst
    | position h => simpa [tagged?, Json.natural?, Abi.Variant.branch?] using h

/-- A tag selects the branch that has its number. -/
theorem getElem?_of_tagged? (hg : ResolvedTypes doc g) {name : String} {variant : Abi.Variant}
    (hv : g.variant? name = some variant) {tag : Json} {b : Abi.Branch}
    (h : tagged? variant tag = some b) :
    variant.branches[b.index]? = some b := by
  have hposition : ∃ position : Nat, variant.branches[position]? = some b := by
    cases tagged?_eq_some_iff.1 h with
    | typeText hbranches _ => exact List.mem_iff_getElem?.1 (hbranches ▸ by simp)
    | position h => exact ⟨_, h⟩
  obtain ⟨position, hb⟩ := hposition
  rw [hg.branches_numbered (hg.variant?_eq_some_iff.1 hv).1 hb]
  exact hb

/-- What an entry of an object is to a struct: something else, a null that stays one, or a value to
read along the type of a field. -/
inductive EntryKind (s : Abi.Struct) : String → Json → Prop where
  | other {key : String} {v : Json} (hkey : key ∉ s.fields.map Abi.Field.name) : EntryKind s key v
  | null {f : Abi.Field} (hf : f ∈ s.fields) (hoptional : f.type.optional = true) :
    EntryKind s f.name .null
  | declared {f : Abi.Field} {v : Json} (hf : f ∈ s.fields)
    (hn : ¬ (f.type.optional = true ∧ v = .null)) : EntryKind s f.name v

theorem entryKind (s : Abi.Struct) (key : String) (v : Json) : EntryKind s key v := by
  by_cases hkey : key ∈ s.fields.map Abi.Field.name
  · obtain ⟨f, hf, rfl⟩ := List.mem_map.1 hkey
    by_cases hn : f.type.optional = true ∧ v = .null
    · obtain ⟨hoptional, rfl⟩ := hn
      exact .null hf hoptional
    · exact .declared hf hn
  · exact .other hkey

/-- What becomes of the value under a key that the struct does not declare. -/
theorem coerceEntry_of_other {c : Coercer} {s : Abi.Struct} {key : String}
    (hkey : key ∉ s.fields.map Abi.Field.name) :
    c.coerceEntry place s key v = .ok (.wire v) := by
  unfold Coercer.coerceEntry Abi.Struct.field?
  rw [Abi.find?_name_eq_none_iff.2 hkey]

/-- Null stays null where a field may be null. -/
theorem coerceEntry_of_null {c : Coercer} {s : Abi.Struct}
    (hd : (s.fields.map Abi.Field.name).Nodup) {f : Abi.Field} (hf : f ∈ s.fields)
    (hoptional : f.type.optional = true) :
    c.coerceEntry place s f.name .null = .ok (.wire .null) := by
  unfold Coercer.coerceEntry Abi.Struct.field?
  rw [(Abi.find?_name_eq_some_iff hd).2 ⟨hf, rfl⟩]
  simp [hoptional, Json.isNull]

/-- Any other value of a declared field is read along the type of the field. -/
theorem coerceEntry_of_mem {c : Coercer} {s : Abi.Struct}
    (hd : (s.fields.map Abi.Field.name).Nodup) {f : Abi.Field} (hf : f ∈ s.fields)
    (hn : ¬ (f.type.optional = true ∧ v = .null)) :
    c.coerceEntry place s f.name v = c.coerce (place.push (.field f.name)) f.type.expr v := by
  have hread : ¬ (f.type.optional && v.isNull) = true := by
    rw [Bool.and_eq_true_iff, Json.isNull_eq_true_iff]
    exact hn
  unfold Coercer.coerceEntry Abi.Struct.field?
  rw [(Abi.find?_name_eq_some_iff hd).2 ⟨hf, rfl⟩]
  exact if_neg hread

/-- A struct may lack what is an extension, may be null or leads to no richer value. -/
theorem mayLack_iff (hg : ResolvedTypes doc g) {f : Abi.Field} :
    (Coercer.ofGraph g).MayLack f ↔ (f.type.binaryExtension = false → f.type.optional = false →
      ¬ Rich g f.type.expr) := by
  unfold Coercer.MayLack
  rw [← isRich_iff hg]
  cases f.type.binaryExtension <;> cases f.type.optional <;> simp

/-- Entries with the same keys in the same order are paired key by key. -/
theorem fst_eq_of_mem_zip {entries : List (String × Json)} {values : List (String × HostValue)}
    (hkeys : values.map Prod.fst = entries.map Prod.fst) {e : String × Json}
    {w : String × HostValue} (h : (e, w) ∈ entries.zip values) : w.1 = e.1 := by
  have hpairs : List.Forall₂ (fun e w : String => e = w) (entries.map Prod.fst)
      (values.map Prod.fst) := by
    rw [List.forall₂_eq_eq_eq, hkeys]
  rw [List.forall₂_map_left_iff, List.forall₂_map_right_iff] at hpairs
  exact ((List.forall₂_iff_zip.1 hpairs).2 h).symm

section Entries

variable {entries : List (String × Json)} {values : List (String × HostValue)} {key : String}

/-- Every value that has been read comes from what stands under its key. -/
theorem exists_entry_left (hkeys : values.map Prod.fst = entries.map Prod.fst)
    (h : (key, value) ∈ values) : ∃ v, ((key, v), (key, value)) ∈ entries.zip values := by
  have hlength : values.length = entries.length := by simpa using congrArg List.length hkeys
  obtain ⟨⟨key', v⟩, hvw⟩ := Outcome.exists_mem_zip_right hlength h
  obtain rfl := fst_eq_of_mem_zip hkeys hvw
  exact ⟨v, hvw⟩

/-- What stands under a key has been read as a value under this key. -/
theorem exists_entry_right (hkeys : values.map Prod.fst = entries.map Prod.fst)
    (h : (key, v) ∈ entries) : ∃ w, ((key, v), (key, w)) ∈ entries.zip values := by
  have hlength : values.length = entries.length := by simpa using congrArg List.length hkeys
  obtain ⟨⟨key', w⟩, hvw⟩ := Outcome.exists_mem_zip_left hlength h
  obtain rfl : key' = key := fst_eq_of_mem_zip hkeys hvw
  exact ⟨w, hvw⟩

end Entries

/-- Entries of an object are read as entries of a struct: under each key what the value there is
read as, where `R` says what values of declared fields are read as. -/
structure EntriesRead (g : Graph) (s : Abi.Struct) (R : Abi.Field → Json → HostValue → Prop)
    (entries : List (String × Json)) (values : List (String × HostValue)) : Prop where
  keys : values.map Prod.fst = entries.map Prod.fst
  declared : ∀ f ∈ s.fields, ∀ v w, ((f.name, v), (f.name, w)) ∈ entries.zip values →
    ¬ (f.type.optional = true ∧ v = .null) → R f v w
  null : ∀ f ∈ s.fields, ∀ w, ((f.name, .null), (f.name, w)) ∈ entries.zip values →
    f.type.optional = true → w = .wire .null
  other : ∀ key v w, ((key, v), (key, w)) ∈ entries.zip values →
    key ∉ s.fields.map Abi.Field.name → w = .wire v
  required : ∀ f ∈ s.fields, f.type.binaryExtension = false → f.type.optional = false →
    Rich g f.type.expr → f.name ∈ values.map Prod.fst

/-- The entries of a struct are collected as what they are read as, each for itself. -/
theorem collect_eq_ok_iff_entriesRead (hg : ResolvedTypes doc g) {s : Abi.Struct}
    (hs : s ∈ g.structs) {entries : List (String × Json)} {values : List (String × HostValue)} :
    (Coercer.ofGraph g).collect place s ((Coercer.ofGraph g).coerceEntries place s entries) =
        .ok values ↔
      EntriesRead g s (fun f v w => (Coercer.ofGraph g).coerce (place.push (.field f.name))
        f.type.expr v = .ok w) entries values := by
  have hd := hg.fields_distinct hs
  rw [Coercer.collect_eq_ok_iff]
  constructor
  · rintro ⟨hread, hlack⟩
    have hkeys : values.map Prod.fst = entries.map Prod.fst :=
      (Outcome.map_eq_map hread fun _ _ hw => hw.1.symm).symm
    have hpairs {key : String} {v : Json} {w : HostValue}
        (hvw : ((key, v), (key, w)) ∈ entries.zip values) :
        (Coercer.ofGraph g).coerceEntry place s key v = .ok w :=
      ((List.forall₂_iff_zip.1 hread).2 hvw).2
    refine ⟨hkeys, ?_, ?_, ?_, ?_⟩
    · intro f hf v w hvw hn
      rw [← coerceEntry_of_mem hd hf hn]
      exact hpairs hvw
    · intro f hf w hvw hoptional
      have hw := hpairs hvw
      rw [coerceEntry_of_null hd hf hoptional] at hw
      exact (Except.ok.inj hw).symm
    · intro key v w hvw hkey
      have hw := hpairs hvw
      rw [coerceEntry_of_other hkey] at hw
      exact (Except.ok.inj hw).symm
    · intro f hf hextension hoptional hrich
      by_contra hmissing
      rw [hkeys] at hmissing
      exact (mayLack_iff hg).1 (hlack f hf hmissing) hextension hoptional hrich
  · intro h
    refine ⟨List.forall₂_iff_zip.2 ⟨?_, ?_⟩, ?_⟩
    · simpa using (congrArg List.length h.keys).symm
    · rintro ⟨key, v⟩ ⟨key', w⟩ hvw
      obtain rfl : key' = key := fst_eq_of_mem_zip h.keys hvw
      refine ⟨rfl, ?_⟩
      cases entryKind s key' v with
      | other hkey => rw [coerceEntry_of_other hkey, h.other key' v w hvw hkey]
      | null hf hoptional =>
        rw [h.null _ hf w hvw hoptional]
        exact coerceEntry_of_null hd hf hoptional
      | declared hf hn =>
        rw [coerceEntry_of_mem hd hf hn]
        exact h.declared _ hf v w hvw hn
    · intro f hf hmissing
      rw [← h.keys] at hmissing
      refine (mayLack_iff hg).2 fun hextension hoptional hrich => ?_
      exact hmissing (h.required f hf hextension hoptional hrich)

/-- A value of a built-in type that is read has its shape. -/
theorem shaped_of_readScalar {kind : Reinterpretation}
    (ht : g.StandsFor expr (.primitive (builtIn kind)))
    (h : readScalar kind place v = .ok value) : Shaped g expr v value := by
  cases kind with
  | bool =>
    obtain ⟨b, hflag, rfl⟩ := readScalar_bool.1 h
    exact .flag ht hflag
  | timePointSec =>
    obtain ⟨text, m, rfl, hm, rfl⟩ := readScalar_timePointSec.1 h
    exact .moment ht hm
  | asset =>
    obtain ⟨text, a, rfl, ha, rfl⟩ := readScalar_asset.1 h
    exact .asset ht ha

/-- A value that is read has the shape of its type. -/
theorem shaped_of_coerce (hg : ResolvedTypes doc g)
    (h : (Coercer.ofGraph g).coerce place expr v = .ok value) : Shaped g expr v value := by
  induction v using Json.part_wellFounded.induction generalizing expr place value with
  | _ v ih =>
    have hreading := readAs_reading hg expr
    generalize hr : (Coercer.ofGraph g).reading expr = reading at hreading
    cases hreading with
    | asIs hplain =>
      rw [Coercer.coerce_of_asIs hr] at h
      cases h
      exact .asIs hplain
    | scalar ht hk =>
      rw [Coercer.coerce_of_scalar hr] at h
      exact shaped_of_readScalar (eq_builtIn hk ▸ ht) h
    | items hrich ht =>
      obtain ⟨items, values, rfl, rfl, hvalues⟩ := (Coercer.coerce_of_items hr).1 h
      obtain ⟨hlength, hpairs⟩ := List.forall₂_iff_zip.1 (Coercer.forall₂_of_coerceItems hvalues)
      refine .items hrich ht hlength.symm ?_
      intro v w hvw
      obtain ⟨place, hw⟩ := hpairs hvw
      exact ih v (.item (List.of_mem_zip hvw).1) hw
    | fields hrich ht hs =>
      obtain ⟨entries, values, rfl, rfl, hvalues⟩ := (Coercer.coerce_of_fields hr).1 h
      have hread := (collect_eq_ok_iff_entriesRead hg (hg.struct?_eq_some_iff.1 hs).1).1 hvalues
      refine .fields hrich ht hs hread.keys ?_ hread.null hread.other hread.required
      intro f hf v w hvw hn
      exact ih v (.entry (List.of_mem_zip hvw).1) (hread.declared f hf v w hvw hn)
    | branches ht hv =>
      obtain ⟨tag, payload, b, inner, rfl, rfl, htag, hinner⟩ := (Coercer.coerce_of_branches hr).1 h
      have hpayload : Json.Part payload (.array [tag, payload]) := .item (by simp)
      exact .branch ht hv htag (getElem?_of_tagged? hg hv htag) (ih payload hpayload hinner)

/-- A value of a row is read as what has the shape of the type, wherever it stands. -/
theorem coerce_of_shaped (hg : ResolvedTypes doc g) (h : Shaped g expr v value) :
    ∀ place, (Coercer.ofGraph g).coerce place expr v = .ok value := by
  induction h with
  | asIs hr => exact fun _ => Coercer.coerce_of_asIs ((reading_eq_iff hg).2 (.asIs hr))
  | flag ht hv =>
    intro place
    rw [Coercer.coerce_of_scalar ((reading_eq_iff hg).2 (.scalar ht rfl))]
    exact readScalar_bool.2 ⟨_, hv, rfl⟩
  | moment ht hm =>
    intro place
    rw [Coercer.coerce_of_scalar ((reading_eq_iff hg).2 (.scalar ht rfl))]
    exact readScalar_timePointSec.2 ⟨_, _, rfl, hm, rfl⟩
  | asset ht ha =>
    intro place
    rw [Coercer.coerce_of_scalar ((reading_eq_iff hg).2 (.scalar ht rfl))]
    exact readScalar_asset.2 ⟨_, _, rfl, ha, rfl⟩
  | items hr ht hlength _ ih =>
    intro place
    refine (Coercer.coerce_of_items ((reading_eq_iff hg).2 (.items hr ht))).2 ⟨_, _, rfl, rfl, ?_⟩
    apply Coercer.coerceItems_of_forall₂
    exact List.forall₂_iff_zip.2 ⟨hlength.symm, fun hvw => ih _ _ hvw⟩
  | fields hr ht hs hkeys _ hnull hother hrequired ih =>
    intro place
    refine (Coercer.coerce_of_fields ((reading_eq_iff hg).2 (.fields hr ht hs))).2
      ⟨_, _, rfl, rfl, (collect_eq_ok_iff_entriesRead hg (hg.struct?_eq_some_iff.1 hs).1).2 ?_⟩
    exact ⟨hkeys, fun f hf v w hvw hn => ih f hf v w hvw hn _, hnull, hother, hrequired⟩
  | branch ht hv htag hb _ ih =>
    intro place
    have hindex := hg.branches_numbered (hg.variant?_eq_some_iff.1 hv).1 hb
    refine (Coercer.coerce_of_branches ((reading_eq_iff hg).2 (.branches ht hv))).2
      ⟨_, _, _, _, rfl, ?_, htag, ih _⟩
    rw [hindex]

/-- What leads to richer values, and nothing else, becomes one. -/
theorem Shaped.wire_iff (h : Shaped g expr v value) : (∃ w, value = .wire w) ↔ ¬ Rich g expr := by
  have hscalar {p : Primitive} {kind : Reinterpretation} (ht : g.StandsFor expr (.primitive p))
      (hk : p.reinterpretation? = some kind) : Rich g expr :=
    (rich_iff_of_standsFor ht).2 (.scalar hk)
  cases h with
  | asIs hr => simp [hr]
  | flag ht _ => simp [hscalar ht rfl]
  | moment ht _ => simp [hscalar ht rfl]
  | asset ht _ => simp [hscalar ht rfl]
  | items hr _ _ _ => simp [hr]
  | fields hr _ _ _ _ _ _ _ => simp [hr]
  | branch ht hv _ _ _ => simp [(rich_iff_of_standsFor ht).2 (.branches hv)]

/-- A row of a member who has a prize, with a note that the contract does not declare. -/
def memberRow : Json := .object [("joined", .text "2024-05-01T12:30:00.500"), ("note", .null),
  ("on", .array [.int 1, .bool false]), ("prize", .array [.text "asset", .text "1.0000 EOS"])]

/-- What that row is read as. -/
def memberValue : HostValue := .struct [
  ("joined", .moment ⟨2024, 5, 1, 12, 30, 0, by decide⟩), ("note", .wire .null),
  ("on", .array [.bool true, .bool false]),
  ("prize", .variant 0 (.asset ⟨10000, ⟨4, "EOS", by decide, by decide⟩, by decide, by decide⟩))]

/-- Reading along a type is sound and complete: a value of a row is read as the host value that
has the shape of the type, and it is left as it is only where no richer value can be. -/
theorem coerce_eq_ok_iff_shaped (h : Abi.resolve doc = .ok g) :
    ((Coercer.ofGraph g).coerce place expr v = .ok value ↔ Shaped g expr v value) ∧
      (Shaped g expr v value → ((∃ w, value = .wire w) ↔ ¬ Rich g expr)) := by
  have hg := (Abi.resolve_eq_ok_iff.1 h).toResolvedTypes
  exact ⟨⟨shaped_of_coerce hg, fun hs => coerce_of_shaped hg hs place⟩, Shaped.wire_iff⟩

theorem coerce_memberRow : Abi.resolve Abi.membership = .ok Abi.membershipGraph ∧
    Shaped Abi.membershipGraph (.named "member") memberRow memberValue :=
  ⟨Abi.resolve_membership, (coerce_eq_ok_iff_shaped Abi.resolve_membership).1.1
    (rfl : (Coercer.ofGraph Abi.membershipGraph).coerce ⟨"member", []⟩ (.named "member") memberRow
      = .ok memberValue)⟩

end ContractBinding.Table
