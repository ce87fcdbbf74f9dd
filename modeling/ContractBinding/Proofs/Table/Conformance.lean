import ContractBinding.Proofs.Table.Rows

/-!
# Which pages are read

A value conforms to a type if it can stand for a host value of the type; where no richer value can
be, every value does. A page is read exactly if the data of each of its rows conforms to the
struct of the table, and then all of its rows are.
-/

namespace ContractBinding.Table

open Abi (Graph ResolvedTypes)

/-- An object may have no entry for a field that is optional, a binary extension or of a type that
leads to no richer value. -/
def MayBeAbsent (g : Graph) (f : Abi.Field) : Prop :=
  f.type.optional = true ∨ f.type.binaryExtension = true ∨ ¬ Rich g f.type.expr

/-- A value conforms to a type. -/
inductive Conforms (g : Graph) : TypeExpr → Json → Prop where
  /-- What leads to no richer value is not looked at. -/
  | asIs {expr : TypeExpr} {v : Json} (hr : ¬ Rich g expr) : Conforms g expr v
  | flag {expr : TypeExpr} {v : Json} {b : Bool} (ht : g.StandsFor expr (.primitive .bool))
    (hv : IsFlag v b) : Conforms g expr v
  | moment {expr : TypeExpr} {text : String} {m : Time.Moment}
    (ht : g.StandsFor expr (.primitive .timePointSec)) (hm : Time.Moment.parse? text = some m) :
    Conforms g expr (.text text)
  | asset {expr : TypeExpr} {text : String} {a : Token.Asset}
    (ht : g.StandsFor expr (.primitive .asset)) (ha : Token.Asset.parse text = .ok a) :
    Conforms g expr (.text text)
  | items {expr element : TypeExpr} {items : List Json} (ht : g.StandsFor expr (.array element))
    (hitems : ∀ u ∈ items, Conforms g element u) : Conforms g expr (.array items)
  | fields {expr : TypeExpr} {name : String} {s : Abi.Struct} {entries : List (String × Json)}
    (ht : g.StandsFor expr (.named name)) (hs : g.struct? name = some s)
    (hpresent : ∀ f ∈ s.fields, ∀ v, (f.name, v) ∈ entries →
      ¬ (f.type.optional = true ∧ v = .null) → Conforms g f.type.expr v)
    (habsent : ∀ f ∈ s.fields, f.name ∉ entries.map Prod.fst → MayBeAbsent g f) :
    Conforms g expr (.object entries)
  | branch {expr : TypeExpr} {name : String} {variant : Abi.Variant} {tag payload : Json}
    {b : Abi.Branch} (ht : g.StandsFor expr (.named name)) (hv : g.variant? name = some variant)
    (htag : Selects variant tag b) (hpayload : Conforms g b.type payload) :
    Conforms g expr (.array [tag, payload])

/-- The entries of an object conform to a struct: what stands under the name of a field conforms to
the type of the field, unless it is null and may be, and fields without an entry may be absent. -/
structure EntriesConform (g : Graph) (s : Abi.Struct) (entries : List (String × Json)) : Prop where
  present : ∀ f ∈ s.fields, ∀ v, (f.name, v) ∈ entries →
    ¬ (f.type.optional = true ∧ v = .null) → Conforms g f.type.expr v
  absent : ∀ f ∈ s.fields, f.name ∉ entries.map Prod.fst → MayBeAbsent g f

/-- A row conforms to the struct of its table: its data is an object whose entries do. -/
def RowConforms (g : Graph) (s : Abi.Struct) (layout : Layout) (row : Json) : Prop :=
  ∃ entries, layout.data? row = some (.object entries) ∧ EntriesConform g s entries

variable {doc : Abi.Document} {g : Graph} {s : Abi.Struct} {expr : TypeExpr} {v : Json}
  {value : HostValue} {entries : List (String × Json)} {layout : Layout}

/-- A struct may lack the fields that may be absent. -/
theorem mayLack_iff_mayBeAbsent (hg : ResolvedTypes doc g) {f : Abi.Field} :
    (Coercer.ofGraph g).MayLack f ↔ MayBeAbsent g f := by
  rw [mayLack_iff hg, MayBeAbsent]
  cases f.type.optional <;> cases f.type.binaryExtension <;> simp

/-- What has no entry among those that have been read may be absent. -/
theorem EntriesRead.absent {R : Abi.Field → Json → HostValue → Prop}
    {values : List (String × HostValue)} (h : EntriesRead g s R entries values) {f : Abi.Field}
    (hf : f ∈ s.fields) (hmissing : f.name ∉ entries.map Prod.fst) : MayBeAbsent g f := by
  unfold MayBeAbsent
  by_contra! hneeds
  obtain ⟨hoptional, hextension, hrich⟩ := hneeds
  rw [← h.keys] at hmissing
  exact hmissing (h.required f hf (by simpa using hextension) (by simpa using hoptional) hrich)

/-- What is read as a value of a type conforms to the type. -/
theorem conforms_of_shaped (h : Shaped g expr v value) : Conforms g expr v := by
  induction h with
  | asIs hr => exact .asIs hr
  | flag ht hv => exact .flag ht hv
  | moment ht hm => exact .moment ht hm
  | asset ht ha => exact .asset ht ha
  | items _ ht hlength _ ih =>
    refine .items ht fun u hu => ?_
    obtain ⟨w, huw⟩ := Outcome.exists_mem_zip_left hlength hu
    exact ih u w huw
  | fields _ ht hs hkeys _ hnull hother hrequired ih =>
    have hread : EntriesRead g _ (fun f v _ => Conforms g f.type.expr v) _ _ :=
      ⟨hkeys, ih, hnull, hother, hrequired⟩
    refine .fields ht hs (fun f hf v hv hn => ?_) fun f => hread.absent
    obtain ⟨w, hvw⟩ := exists_entry_right hkeys hv
    exact ih f hf v w hvw hn
  | branch ht hv htag _ _ ih => exact .branch ht hv (tagged?_eq_some_iff.1 htag) ih

/-- Entries are read as something if the values of declared fields are and no field lacks a value
that needs one. -/
theorem exists_entriesRead (hg : ResolvedTypes doc g) (hs : s ∈ g.structs)
    (hpresent : ∀ f ∈ s.fields, ∀ v, (f.name, v) ∈ entries →
      ¬ (f.type.optional = true ∧ v = .null) → ∃ w, Shaped g f.type.expr v w)
    (habsent : ∀ f ∈ s.fields, f.name ∉ entries.map Prod.fst → MayBeAbsent g f) :
    ∃ values, EntriesShaped g s entries values := by
  have hd := hg.fields_distinct hs
  have hentries : ∀ e ∈ entries, ∃ w : String × HostValue, w.1 = e.1 ∧
      (Coercer.ofGraph g).coerceEntry ⟨s.name, []⟩ s e.1 e.2 = .ok w.2 := by
    rintro ⟨key, v⟩ hv
    cases entryKind s key v with
    | other hkey => exact ⟨(key, .wire v), rfl, coerceEntry_of_other hkey⟩
    | @null f hf hoptional =>
      exact ⟨(f.name, .wire .null), rfl, coerceEntry_of_null hd hf hoptional⟩
    | @declared f _ hf hn =>
      obtain ⟨w, hw⟩ := hpresent f hf v hv hn
      refine ⟨(f.name, w), rfl, ?_⟩
      rw [coerceEntry_of_mem hd hf hn]
      exact coerce_of_shaped hg hw _
  obtain ⟨values, hread⟩ := Outcome.exists_forall₂ hentries
  have hlack : ∀ f ∈ s.fields, f.name ∉ entries.map Prod.fst → (Coercer.ofGraph g).MayLack f :=
    fun f hf hmissing => (mayLack_iff_mayBeAbsent hg).2 (habsent f hf hmissing)
  have hcollected := Coercer.collect_eq_ok_iff.2 ⟨hread, hlack⟩
  exact ⟨values, ((collect_eq_ok_iff_entriesRead hg hs).1 hcollected).mono
    fun _ _ _ => shaped_of_coerce hg⟩

/-- What conforms to a type is read as something. -/
theorem exists_shaped (hg : ResolvedTypes doc g) (h : Conforms g expr v) :
    ∃ w, Shaped g expr v w := by
  induction h with
  | asIs hr => exact ⟨_, .asIs hr⟩
  | flag ht hv => exact ⟨_, .flag ht hv⟩
  | moment ht hm => exact ⟨_, .moment ht hm⟩
  | asset ht ha => exact ⟨_, .asset ht ha⟩
  -- A list or an object of a type without richer values is kept, however it conforms.
  | @items expr element items ht _ ih =>
    by_cases hr : Rich g expr
    · obtain ⟨values, hread⟩ := Outcome.exists_forall₂ ih
      obtain ⟨hlength, hitems⟩ := List.forall₂_iff_zip.1 hread
      exact ⟨_, .items hr ht hlength.symm fun _ _ => hitems⟩
    · exact ⟨_, .asIs hr⟩
  | @fields expr _ _ _ ht hs _ habsent ih =>
    by_cases hr : Rich g expr
    · obtain ⟨values, h⟩ := exists_entriesRead hg (hg.struct?_eq_some_iff.1 hs).1 ih habsent
      exact ⟨_, .fields hr ht hs h.keys h.declared h.null h.other h.required⟩
    · exact ⟨_, .asIs hr⟩
  | branch ht hv htag _ ih =>
    obtain ⟨w, hw⟩ := ih
    have htagged := tagged?_eq_some_iff.2 htag
    exact ⟨_, .branch ht hv htagged (getElem?_of_tagged? hg hv htagged) hw⟩

/-- The entries of an object are read as something exactly if they conform. -/
theorem exists_entriesRead_iff (hg : ResolvedTypes doc g) (hs : s ∈ g.structs) :
    (∃ values, EntriesShaped g s entries values) ↔
      EntriesConform g s entries := by
  constructor
  · rintro ⟨values, h⟩
    refine ⟨fun f hf v hv hn => ?_, fun f => h.absent⟩
    obtain ⟨w, hvw⟩ := exists_entry_right h.keys hv
    exact conforms_of_shaped (h.declared f hf v w hvw hn)
  · intro h
    refine exists_entriesRead hg hs (fun f hf v hv hn => ?_) h.absent
    exact exists_shaped hg (h.present f hf v hv hn)

/-- A row is read exactly if it conforms. -/
theorem exists_rowRead_iff (hg : ResolvedTypes doc g) (hs : s ∈ g.structs) {row : Json} :
    (∃ r, RowRead g s layout row r) ↔ RowConforms g s layout row := by
  constructor
  · rintro ⟨r, ⟨entries, hdata, h⟩, -⟩
    exact ⟨entries, hdata, (exists_entriesRead_iff hg hs).1 ⟨_, h⟩⟩
  · rintro ⟨entries, hdata, h⟩
    obtain ⟨fields, hread⟩ := (exists_entriesRead_iff hg hs).2 h
    exact ⟨⟨fields, layout.payer? row⟩, ⟨entries, hdata, hread⟩, rfl⟩

/-- A page is read if all of its rows conform, and then none of them is left out; else it is
refused as a whole. -/
theorem coercePage_ok_iff_conforms (h : Abi.resolve doc = .ok g) (hs : s ∈ g.structs)
    (layout : Layout) (page : Page Json) :
    ((∃ p, coercePage g s layout page = .ok p) ↔
        ∀ row ∈ page.rows, RowConforms g s layout row) ∧
      ∀ p, coercePage g s layout page = .ok p → p.rows.length = page.rows.length := by
  have hg := (Abi.resolve_eq_ok_iff.1 h).toResolvedTypes
  refine ⟨⟨?_, ?_⟩, ?_⟩
  · rintro ⟨p, hp⟩ row hrow
    obtain ⟨r, -, hr⟩ := Outcome.exists_mem_right ((coercePage_eq_ok_iff hg hs).1 hp).1 hrow
    exact (exists_rowRead_iff hg hs).1 ⟨r, hr⟩
  · intro hrows
    obtain ⟨rows, hread⟩ := Outcome.exists_forall₂ fun row hrow =>
      (exists_rowRead_iff hg hs).2 (hrows row hrow)
    exact ⟨⟨rows, page.more, page.nextKey⟩, (coercePage_eq_ok_iff hg hs).2 ⟨hread, rfl, rfl⟩⟩
  · intro p hp
    exact ((coercePage_eq_ok_iff hg hs).1 hp).1.length_eq.symm

theorem entryPage_conforms : Abi.resolve Abi.membership = .ok Abi.membershipGraph ∧
    entryStruct ∈ Abi.membershipGraph.structs ∧
    (∀ row ∈ entryPage.rows, RowConforms Abi.membershipGraph entryStruct .withPayer row) ∧
    ¬ ∀ row ∈ entryPage.rows, RowConforms Abi.membershipGraph entryStruct .plain row := by
  have hs : entryStruct ∈ Abi.membershipGraph.structs := by decide
  have hread := fun layout =>
    (coercePage_ok_iff_conforms Abi.resolve_membership hs layout entryPage).1
  refine ⟨Abi.resolve_membership, hs, (hread .withPayer).1 ⟨entryRows, rfl⟩, fun hplain => ?_⟩
  obtain ⟨p, hp⟩ := (hread .plain).2 hplain
  have hrefused : (coercePage Abi.membershipGraph entryStruct .plain entryPage).isOk = false := rfl
  simp [hp, Except.isOk, Except.toBool] at hrefused

end ContractBinding.Table
