import ContractBinding.Proofs.Table.Shape

/-!
# Rows and pages

The layout of a row says where its data stands and whether it says who pays. The data is read as
an object of a struct, whether or not the struct leads to richer values, and a page is read row
by row.
-/

namespace ContractBinding.Table

open Abi (Graph ResolvedTypes)
open Host (ValuePath)

/-- The data of a row. -/
def Layout.data? : Layout → Json → Option Json
  | .plain, row => some row
  | .withPayer, row => row.get? "data"

/-- The payer of a row. -/
def Layout.payer? : Layout → Json → Option String
  | .plain, _ => none
  | .withPayer, row => (row.get? "payer").bind Json.text?

/-- Entries are read as entries of a struct, each as what has the shape of its type. -/
abbrev EntriesShaped (g : Graph) (s : Abi.Struct) : List (String × Json) →
    List (String × HostValue) → Prop :=
  EntriesRead g s fun f => Shaped g f.type.expr

/-- A row says what its data and its payer say. -/
structure RowRead (g : Graph) (s : Abi.Struct) (layout : Layout) (row : Json) (r : Row) : Prop where
  fields : ∃ entries, layout.data? row = some (.object entries) ∧
    EntriesShaped g s entries r.fields
  payer : r.payer = layout.payer? row

variable {doc : Abi.Document} {g : Graph} {s : Abi.Struct} {place : ValuePath} {layout : Layout}
  {row : Json} {r : Row} {page : Page Json} {p : Page Row}

/-- What values of declared fields are read as may be said in another way. -/
theorem EntriesRead.mono {R R' : Abi.Field → Json → HostValue → Prop}
    {entries : List (String × Json)} {values : List (String × HostValue)}
    (h : EntriesRead g s R entries values) (hR : ∀ f v w, R f v w → R' f v w) :
    EntriesRead g s R' entries values :=
  { h with declared := fun f hf v w hvw hn => hR f v w (h.declared f hf v w hvw hn) }

/-- An object of a struct is read as what its entries are read as. -/
theorem coerceStruct_eq_ok_iff (hg : ResolvedTypes doc g) (hs : s ∈ g.structs) {data : Json}
    {values : List (String × HostValue)} :
    (Coercer.ofGraph g).coerceStruct place s data = .ok values ↔
      ∃ entries, data = .object entries ∧ EntriesShaped g s entries values := by
  cases data with
  | object entries =>
    rw [Coercer.coerceStruct, collect_eq_ok_iff_entriesRead hg hs]
    constructor
    · intro h
      exact ⟨entries, rfl, h.mono fun _ _ _ => shaped_of_coerce hg⟩
    · rintro ⟨_, hentries, h⟩
      cases hentries
      exact h.mono fun _ _ _ hvalue => coerce_of_shaped hg hvalue _
  | _ => simp [Coercer.coerceStruct]

/-- The data of a row is read, and its payer is kept. -/
theorem Coercer.coerceRow_eq_ok_iff {c : Coercer} : c.coerceRow s layout row = .ok r ↔
    ∃ data, layout.data? row = some data ∧ c.coerceStruct ⟨s.name, []⟩ s data = .ok r.fields ∧
      r.payer = layout.payer? row := by
  have hstruct (data : Json) (payer : Option String) :
      (do return { fields := ← c.coerceStruct ⟨s.name, []⟩ s data, payer } : Except CallFault Row) =
          .ok r ↔
        c.coerceStruct ⟨s.name, []⟩ s data = .ok r.fields ∧ r.payer = payer := by
    simp only [Outcome.bind_eq_ok_iff, Outcome.pure_eq_ok_iff]
    constructor
    · rintro ⟨fields, hfields, rfl⟩
      exact ⟨hfields, rfl⟩
    · rintro ⟨hfields, rfl⟩
      exact ⟨r.fields, hfields, rfl⟩
  unfold Coercer.coerceRow
  cases layout with
  | plain =>
    refine (hstruct row none).trans ?_
    simp [Layout.data?, Layout.payer?]
  | withPayer =>
    simp only [Layout.data?, Layout.payer?]
    cases row.get? "data" with
    | none => simp
    | some data =>
      refine (hstruct data _).trans ?_
      simp

/-- A row is read exactly as what it says. -/
theorem coerceRow_eq_ok_iff_rowRead (hg : ResolvedTypes doc g) (hs : s ∈ g.structs) :
    (Coercer.ofGraph g).coerceRow s layout row = .ok r ↔ RowRead g s layout row r := by
  rw [Coercer.coerceRow_eq_ok_iff]
  constructor
  · rintro ⟨data, hdata, hfields, hpayer⟩
    obtain ⟨entries, rfl, hread⟩ := (coerceStruct_eq_ok_iff hg hs).1 hfields
    exact ⟨⟨entries, hdata, hread⟩, hpayer⟩
  · rintro ⟨⟨entries, hdata, hread⟩, hpayer⟩
    exact ⟨_, hdata, (coerceStruct_eq_ok_iff hg hs).2 ⟨entries, rfl, hread⟩, hpayer⟩

/-- A page is read exactly as what its rows say, in their order. -/
theorem coercePage_eq_ok_iff (hg : ResolvedTypes doc g) (hs : s ∈ g.structs) :
    coercePage g s layout page = .ok p ↔ List.Forall₂ (RowRead g s layout) page.rows p.rows ∧
      p.more = page.more ∧ p.nextKey = page.nextKey := by
  unfold coercePage
  simp only [Outcome.bind_eq_ok_iff, Outcome.pure_eq_ok_iff, Outcome.mapM_eq_ok_iff,
    coerceRow_eq_ok_iff_rowRead hg hs]
  constructor
  · rintro ⟨rows, h, rfl⟩
    exact ⟨h, rfl, rfl⟩
  · rintro ⟨h, hmore, hnextKey⟩
    refine ⟨p.rows, h, ?_⟩
    rw [← hmore, ← hnextKey]

/-- The struct of entries of the membership contract. -/
def entryStruct : Abi.Struct :=
  let on : Abi.Field := ⟨"on", ⟨.named "flags", false, false⟩, "entry"⟩
  ⟨"entry", none, [on], [on]⟩

/-- A page with an entry and who pays for it. -/
def entryPage : Page Json where
  rows := [.object [("data", .object [("note", .null), ("on", .array [.int 1, .bool false])]),
    ("payer", .text "alice")]]
  more := true

/-- What that page is read as. -/
def entryRows : Page Row where
  rows := [⟨[("note", .wire .null), ("on", .array [.bool true, .bool false])], some "alice"⟩]
  more := true

/-- With its payer the row is an entry; as it stands it lacks a field. -/
example : coercePage Abi.membershipGraph entryStruct .withPayer entryPage = .ok entryRows ∧
    (coercePage Abi.membershipGraph entryStruct .plain entryPage).isOk = false := ⟨rfl, rfl⟩

end ContractBinding.Table
