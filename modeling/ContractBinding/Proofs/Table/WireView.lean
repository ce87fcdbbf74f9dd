import ContractBinding.Proofs.Table.Frame
import ContractBinding.Proofs.Table.RoundTrip

/-!
# Wire views read again

The wire view of a page is a page again. Whether it says the same depends on the payers: a row is
written by whether it has a payer, and it is read by the layout that was asked for. A row that came
without the name of its payer, though payers were asked for, is written without its frame, and what
is then read is never that row.
-/

namespace ContractBinding.Table

open Abi (Graph ResolvedTypes)

/-- The wire view of a page says what the page says: it decodes as a page that is read as this one,
in the same layout. -/
def SaysPage (g : Graph) (s : Abi.Struct) (layout : Layout) (p : Page Row) : Prop :=
  ∃ again, Page.ofJson? p.toWire = some again ∧ coercePage g s layout again = .ok p

variable {doc : Abi.Document} {g : Graph} {s : Abi.Struct} {layout : Layout} {row : Json}
  {r : Row} {page : Page Json} {p : Page Row}

/-- The wire view of a page decodes as the page of the wire views of its rows. -/
theorem ofJson?_toWire : Page.ofJson? p.toWire =
    some { rows := p.rows.map Row.toWire, more := p.more, nextKey := p.nextKey } := by
  have hrows : Json.list? some (.array (p.rows.map Row.toWire)) = some (p.rows.map Row.toWire) :=
    List.mapM_pure.trans (congrArg some (List.map_id _))
  have hslots : p.toWire.slots? ["rows", "more", "next_key"] =
      some [some (.array (p.rows.map Row.toWire)), some (.bool p.more), p.nextKey.map .text] := by
    unfold Page.toWire
    cases p.nextKey <;> rfl
  unfold Page.ofJson?
  simp only [hslots, Option.bind_eq_bind, Option.bind_some, Json.Slot.required, hrows]
  cases p.nextKey <;> rfl

/-- A row with a payer is written with its frame. -/
theorem data?_toWire_of_payer {payer : String} (hp : r.payer = some payer) :
    Layout.withPayer.data? r.toWire = some (HostValue.struct r.fields).toWire ∧
      Layout.withPayer.payer? r.toWire = some payer := by
  unfold Row.toWire
  rw [hp]
  exact ⟨rfl, rfl⟩

/-- A row without a payer is written as its data. -/
theorem toWire_of_no_payer (hp : r.payer = none) :
    r.toWire = (HostValue.struct r.fields).toWire := by
  unfold Row.toWire
  rw [hp]

/-- The data of a row is a part of the row, or the row itself. -/
theorem NoNegativeYear.data {data : Json} (hy : NoNegativeYear row)
    (hdata : layout.data? row = some data) : NoNegativeYear data := by
  cases layout with
  | plain =>
    cases hdata
    exact hy
  | withPayer =>
    have hstep : (Json.Edge.key "data").follow? row = some data := hdata
    exact hy.part (Json.Edge.part_of_follow? hstep)

/-- The wire form of the fields of a row is read as these fields. -/
theorem entriesRead_toWire (hy : NoNegativeYear row) (h : RowRead g s layout row r) :
    EntriesShaped g s (HostValue.entriesToWire r.fields) r.fields := by
  obtain ⟨entries, hdata, hread⟩ := h.fields
  exact hread.toWire fun f v w hv hvw => shaped_toWire hvw ((hy.data hdata).part (.entry hv))

/-- What is read without its frame is never a row that was read with it. -/
theorem not_rowRead_of_no_payer (hg : ResolvedTypes doc g) (hs : s ∈ g.structs)
    (hp : r.payer = none) : ¬ RowRead g s .withPayer r.toWire r := by
  intro h
  -- The row would be alike to its own data, that is, to a part of itself.
  obtain ⟨entries, hdata, -, halike⟩ := rowKept_of_rowRead hg hs h
  rw [toWire_of_no_payer hp] at hdata
  exact halike.follow?_ne_some (.key "data") hdata

/-- The wire view of a row that has been read is read as the row again, in the layout of the row,
exactly if it does not miss a payer there. -/
theorem rowRead_toWire_iff (hg : ResolvedTypes doc g) (hs : s ∈ g.structs)
    (hy : NoNegativeYear row) (h : RowRead g s layout row r) :
    RowRead g s layout r.toWire r ↔ layout = .plain ∨ r.payer ≠ none := by
  have hfields : (HostValue.struct r.fields).toWire =
      .object (HostValue.entriesToWire r.fields) := rfl
  have hread := entriesRead_toWire hy h
  cases layout with
  | plain =>
    have hp : r.payer = none := h.payer
    refine iff_of_true ⟨⟨_, congrArg some ?_, hread⟩, hp⟩ (.inl rfl)
    rw [toWire_of_no_payer hp, hfields]
  | withPayer =>
    cases hp : r.payer with
    | none => exact iff_of_false (not_rowRead_of_no_payer hg hs hp) (by simp)
    | some payer =>
      obtain ⟨hdata, hpayer⟩ := data?_toWire_of_payer hp
      exact iff_of_true ⟨⟨_, hdata, hread⟩, hp.trans hpayer.symm⟩ (by simp)

/-- The wire view of a page that has been read says what the page says exactly if no payers were
asked for or every row came with its payer. -/
theorem saysPage_iff (h : Abi.resolve doc = .ok g) (hs : s ∈ g.structs)
    (hy : ∀ row ∈ page.rows, NoNegativeYear row) (hp : coercePage g s layout page = .ok p) :
    SaysPage g s layout p ↔ layout = .plain ∨ ∀ r ∈ p.rows, r.payer ≠ none := by
  have hg := (Abi.resolve_eq_ok_iff.1 h).toResolvedTypes
  have hrows : ∀ r ∈ p.rows,
      (RowRead g s layout r.toWire r ↔ layout = .plain ∨ r.payer ≠ none) := by
    intro r hr
    obtain ⟨row, hrow, hread⟩ := Outcome.exists_mem_left ((coercePage_eq_ok_iff hg hs).1 hp).1 hr
    exact rowRead_toWire_iff hg hs (hy row hrow) hread
  calc SaysPage g s layout p
    _ ↔ coercePage g s layout
          { rows := p.rows.map Row.toWire, more := p.more, nextKey := p.nextKey } = .ok p := by
      simp [SaysPage, ofJson?_toWire]
    _ ↔ ∀ r ∈ p.rows, RowRead g s layout r.toWire r := by
      rw [coercePage_eq_ok_iff hg hs, List.forall₂_map_left_iff, List.forall₂_same]
      simp
    _ ↔ ∀ r ∈ p.rows, layout = .plain ∨ r.payer ≠ none := forall₂_congr hrows
    _ ↔ layout = .plain ∨ ∀ r ∈ p.rows, r.payer ≠ none := by
      simp only [forall_or_left]

theorem entryRows_saysPage : Abi.resolve Abi.membership = .ok Abi.membershipGraph ∧
    entryStruct ∈ Abi.membershipGraph.structs ∧
    (∀ row ∈ entryPage.rows, NoNegativeYear row) ∧
    coercePage Abi.membershipGraph entryStruct .withPayer entryPage = .ok entryRows ∧
    SaysPage Abi.membershipGraph entryStruct .withPayer entryRows := by
  have hs : entryStruct ∈ Abi.membershipGraph.structs := by decide
  have hy : ∀ row ∈ entryPage.rows, NoNegativeYear row := by
    simp only [entryPage, noNegativeYear_object, noNegativeYear_array, noNegativeYear_text,
      noNegativeYear_null, noNegativeYear_int, noNegativeYear_bool, List.forall_mem_cons,
      List.not_mem_nil, false_implies, implies_true, true_and, and_true]
    decide
  have hp : coercePage Abi.membershipGraph entryStruct .withPayer entryPage = .ok entryRows := rfl
  exact ⟨Abi.resolve_membership, hs, hy, hp,
    (saysPage_iff Abi.resolve_membership hs hy hp).2 (.inr (by simp [entryRows]))⟩

/-- A page with an entry whose payer was asked for and did not come. -/
def unpaidPage : Page Json where
  rows := [.object [("data", .object [("on", .array [.bool true])]), ("payer", .null)]]

/-- What that page is read as. -/
def unpaidRows : Page Row where
  rows := [⟨[("on", .array [.bool true])], none⟩]

/-- The wire view of that page is refused when it is read again. -/
theorem unpaidRows_not_saysPage : Abi.resolve Abi.membership = .ok Abi.membershipGraph ∧
    entryStruct ∈ Abi.membershipGraph.structs ∧
    (∀ row ∈ unpaidPage.rows, NoNegativeYear row) ∧
    coercePage Abi.membershipGraph entryStruct .withPayer unpaidPage = .ok unpaidRows ∧
    ¬ SaysPage Abi.membershipGraph entryStruct .withPayer unpaidRows := by
  have hy : ∀ row ∈ unpaidPage.rows, NoNegativeYear row := by
    simp [unpaidPage, noNegativeYear_object, noNegativeYear_array, noNegativeYear_null,
      noNegativeYear_bool]
  refine ⟨Abi.resolve_membership, by decide, hy, rfl, ?_⟩
  rintro ⟨again, hagain, hread⟩
  rw [ofJson?_toWire] at hagain
  cases hagain
  cases hread

end ContractBinding.Table
