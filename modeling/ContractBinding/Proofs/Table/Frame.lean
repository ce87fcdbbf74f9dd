import ContractBinding.Proofs.Json.Outline
import ContractBinding.Proofs.Table.Rows

/-!
# What reading leaves alone

A value that has been read has the same outlines as its wire form: objects keep their keys and
lists their items, whether or not the type declares them. Only leaves are written anew, and only
those that the type has as truth values, moments and amounts, and the tags of variants.
-/

namespace ContractBinding.Table

open Abi (Graph ResolvedTypes)
open Json (Edge AlikeBut)

/-- The ways down a value to the leaves that reading may write anew: where its type has a truth
value, a moment or an amount, and the tags of variants. -/
inductive Rewritten (g : Graph) : TypeExpr → Json → List Edge → Prop where
  | scalar {expr : TypeExpr} {v : Json} (kind : Reinterpretation)
    (ht : g.StandsFor expr (.primitive (builtIn kind))) : Rewritten g expr v []
  | item {expr element : TypeExpr} {items : List Json} {position : Nat} {u : Json}
    {way : List Edge} (ht : g.StandsFor expr (.array element)) (hu : items[position]? = some u)
    (hway : Rewritten g element u way) : Rewritten g expr (.array items) (.item position :: way)
  | field {expr : TypeExpr} {name : String} {s : Abi.Struct} {f : Abi.Field}
    {entries : List (String × Json)} {u : Json} {way : List Edge}
    (ht : g.StandsFor expr (.named name)) (hs : g.struct? name = some s) (hf : f ∈ s.fields)
    (hu : entries.lookup f.name = some u) (hway : Rewritten g f.type.expr u way) :
    Rewritten g expr (.object entries) (.key f.name :: way)
  | tag {expr : TypeExpr} {name : String} {variant : Abi.Variant} {tag payload : Json}
    (ht : g.StandsFor expr (.named name)) (hv : g.variant? name = some variant) :
    Rewritten g expr (.array [tag, payload]) [.item 0]
  | payload {expr : TypeExpr} {name : String} {variant : Abi.Variant} {tag payload : Json}
    {b : Abi.Branch} {way : List Edge} (ht : g.StandsFor expr (.named name))
    (hv : g.variant? name = some variant) (htag : Selects variant tag b)
    (hway : Rewritten g b.type payload way) :
    Rewritten g expr (.array [tag, payload]) (.item 1 :: way)

/-- A row has the keys of its data, and what stands under them is kept but for such leaves. -/
def RowKept (g : Graph) (s : Abi.Struct) (layout : Layout) (row : Json) (r : Row) : Prop :=
  ∃ entries, layout.data? row = some (.object entries) ∧
    r.fields.map Prod.fst = entries.map Prod.fst ∧
    AlikeBut (Rewritten g (.named s.name) (.object entries)) (.object entries)
      (HostValue.struct r.fields).toWire

variable {doc : Abi.Document} {g : Graph} {s : Abi.Struct} {expr : TypeExpr}
  {v : Json} {value : HostValue}

/-- The entries of an object keep their outlines where the values of declared fields do. -/
theorem EntriesRead.alikeBut {R : Abi.Field → Json → HostValue → Prop}
    {entries : List (String × Json)} {values : List (String × HostValue)}
    {differs : List Edge → Prop} (h : EntriesRead g s R entries values)
    (hR : ∀ f ∈ s.fields, ∀ v w, entries.lookup f.name = some v → R f v w →
      AlikeBut (fun way => differs (.key f.name :: way)) v w.toWire) :
    AlikeBut differs (.object entries) (HostValue.struct values).toWire := by
  rw [HostValue.toWire, HostValue.entriesToWire_eq_map]
  refine AlikeBut.object (by rw [List.map_map, ← h.keys]; rfl) ?_
  intro _ v _ hv hvu
  rw [List.zip_map_right] at hvu
  obtain ⟨⟨⟨_, _⟩, ⟨key, w⟩⟩, hvw, hpair⟩ := List.mem_map.1 hvu
  cases hpair
  cases entryKind s key v with
  | other hkey =>
    rw [h.other key v w hvw hkey]
    exact .refl _
  | null hf hoptional =>
    rw [h.null _ hf w hvw hoptional]
    exact .refl _
  | declared hf hn => exact hR _ hf v w hv (h.declared _ hf v w hvw hn)

/-- A value differs from its wire form at most in the leaves that are written anew. -/
theorem alikeBut_toWire (h : Shaped g expr v value) :
    AlikeBut (Rewritten g expr v) v value.toWire := by
  induction h with
  | asIs _ => exact .refl _
  | flag ht hv =>
    cases hv with
    | bool | zero | one => exact .leaf rfl rfl (.scalar .bool ht)
  | moment ht _ => exact .leaf rfl rfl (.scalar .timePointSec ht)
  | asset ht _ => exact .leaf rfl rfl (.scalar .asset ht)
  | @items _ _ items values _ ht hlength _ ih =>
    rw [HostValue.toWire, HostValue.itemsToWire_eq_map]
    refine .array (by rw [List.length_map, hlength]) ?_
    intro position v u hv hu
    rw [List.getElem?_map, Option.map_eq_some_iff] at hu
    obtain ⟨w, hw, rfl⟩ := hu
    have hvw : (v, w) ∈ items.zip values :=
      List.mem_of_getElem? (List.getElem?_zip_eq_some.2 ⟨hv, hw⟩)
    exact (ih v w hvw).mono fun _ => .item ht hv
  | fields _ ht hs hkeys _ hnull hother hrequired ih =>
    have hread : EntriesRead g _ (fun f v w =>
      AlikeBut (Rewritten g f.type.expr v) v w.toWire) _ _ := ⟨hkeys, ih, hnull, hother, hrequired⟩
    exact hread.alikeBut fun f hf v w hv hvw => hvw.mono fun _ => .field ht hs hf hv
  | branch ht hv htag _ _ ih =>
    have hselects := tagged?_eq_some_iff.1 htag
    rw [HostValue.toWire]
    refine .array rfl ?_
    intro position u u' hu hu'
    match position with
    | 0 =>
      cases hu
      cases hu'
      -- A tag that selects a branch is a text or a number, and its wire form is a number.
      cases hselects with
      | typeText | position => exact .leaf rfl rfl (.tag ht hv)
    | 1 =>
      cases hu
      cases hu'
      exact ih.mono fun _ => .payload ht hv hselects
    | position + 2 => cases hu

/-- The type of a struct is the struct. -/
theorem standsFor_of_struct (hg : ResolvedTypes doc g) (hs : s ∈ g.structs) :
    g.struct? s.name = some s ∧ g.StandsFor (.named s.name) (.named s.name) := by
  have hfound := hg.struct?_eq_some_iff.2 ⟨hs, rfl⟩
  refine ⟨hfound, .self ?_⟩
  rintro name ⟨⟩
  exact (Graph.others_of_struct? hfound).1

/-- What is read of a row is kept in its wire form. -/
theorem rowKept_of_rowRead (hg : ResolvedTypes doc g) (hs : s ∈ g.structs) {layout : Layout}
    {row : Json} {r : Row} (h : RowRead g s layout row r) : RowKept g s layout row r := by
  obtain ⟨hfound, ht⟩ := standsFor_of_struct hg hs
  obtain ⟨entries, hdata, hread⟩ := h.fields
  refine ⟨entries, hdata, hread.keys, hread.alikeBut fun f hf v w hv hvw => ?_⟩
  exact (alikeBut_toWire hvw).mono fun _ => .field ht hfound hf hv

/-- A value that has been read differs from what it came as at most in the leaves that are written
anew: every object has its keys, every list its items in their order, and every other leaf is the
same. The rows of a page are kept in this way too, whatever their struct leads to. -/
theorem alikeBut_of_coerce (h : Abi.resolve doc = .ok g) :
    (∀ place expr v value, (Coercer.ofGraph g).coerce place expr v = .ok value →
      AlikeBut (Rewritten g expr v) v value.toWire) ∧
    ∀ s ∈ g.structs, ∀ layout page p, coercePage g s layout page = .ok p →
      List.Forall₂ (RowKept g s layout) page.rows p.rows := by
  have hg := (Abi.resolve_eq_ok_iff.1 h).toResolvedTypes
  refine ⟨fun place expr v value hvalue => alikeBut_toWire (shaped_of_coerce hg hvalue), ?_⟩
  intro s hs layout page p hp
  exact ((coercePage_eq_ok_iff hg hs).1 hp).1.imp fun _ _ => rowKept_of_rowRead hg hs

/-- The row of the member keeps its note and its lists, the row of the entry its note. -/
theorem memberRow_alikeBut :
    Abi.resolve Abi.membership = .ok Abi.membershipGraph ∧
    (Coercer.ofGraph Abi.membershipGraph).coerce ⟨"member", []⟩ (.named "member") memberRow =
      .ok memberValue ∧
    AlikeBut (Rewritten Abi.membershipGraph (.named "member") memberRow) memberRow
      memberValue.toWire ∧
    entryStruct ∈ Abi.membershipGraph.structs ∧
    coercePage Abi.membershipGraph entryStruct .withPayer entryPage = .ok entryRows ∧
    List.Forall₂ (RowKept Abi.membershipGraph entryStruct .withPayer) entryPage.rows
      entryRows.rows := by
  have hread : (Coercer.ofGraph Abi.membershipGraph).coerce ⟨"member", []⟩ (.named "member")
      memberRow = .ok memberValue := rfl
  have hs : entryStruct ∈ Abi.membershipGraph.structs := by decide
  have hpage : coercePage Abi.membershipGraph entryStruct .withPayer entryPage =
      .ok entryRows := rfl
  obtain ⟨hvalues, hpages⟩ := alikeBut_of_coerce Abi.resolve_membership
  exact ⟨Abi.resolve_membership, hread, hvalues _ _ _ _ hread, hs, hpage,
    hpages _ hs _ _ _ hpage⟩

end ContractBinding.Table
