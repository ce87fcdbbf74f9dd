import ContractBinding.Proofs.Call.Reduction
import ContractBinding.Proofs.Table.Shape
import ContractBinding.Proofs.Time.MomentText
import ContractBinding.Proofs.Token.AssetText

/-!
# From rows to calls and back

A value that has been read from a row can be passed to an action at the same type. What is sent
is its wire form, which reads as the same value again.
-/

namespace ContractBinding.Table

open Abi (Graph ResolvedTypes)
open Host (ValuePath)
open Relation (ReflTransGen)

variable {doc : Abi.Document} {g : Graph} {place : ValuePath} {expr : TypeExpr} {v : Json}
  {value : HostValue}

/-- Only null is null on the wire. -/
theorem eq_wire_null_of_toWire (h : value.toWire = .null) : value = .wire .null := by
  cases value with
  | wire v => exact congrArg HostValue.wire h
  | _ => simp [HostValue.toWire] at h

/-- What has been read at a type: a value that has the shape of the type, or null. -/
def FromRow (g : Graph) (visit : TypeExpr × HostValue) : Prop :=
  visit.2 = .wire .null ∨ ∃ v, Shaped g visit.1 v visit.2

/-- One step below what has been read, there is what has been read. -/
theorem FromRow.below (hg : ResolvedTypes doc g) {above below : TypeExpr × HostValue}
    (h : FromRow g above) (hbelow : Call.Below g above below) : FromRow g below := by
  cases hbelow with
  | item ht hi =>
    obtain hnull | ⟨v, hv⟩ := h
    · simp at hnull
    cases hv with
    | items _ ht' hlength hitems =>
      cases ht.symm.trans (hg.behind_eq_iff.2 ht')
      obtain ⟨u, huw⟩ := Outcome.exists_mem_zip_right hlength hi
      exact .inr ⟨u, hitems u _ huw⟩
  | @field _ _ key _ f _ _ ht hs he hfound =>
    obtain hnull | ⟨v, hv⟩ := h
    · simp at hnull
    cases hv with
    | fields _ ht' hs' hkeys hdeclared hnull _ _ =>
      cases ht.symm.trans (hg.behind_eq_iff.2 ht')
      cases hs.symm.trans hs'
      have hd := hg.fields_distinct (hg.struct?_eq_some_iff.1 hs).1
      obtain ⟨hf, rfl⟩ := (Abi.find?_name_eq_some_iff hd).1 hfound
      obtain ⟨u, huw⟩ := exists_entry_left hkeys he
      by_cases hn : f.type.optional = true ∧ u = .null
      · obtain ⟨hoptional, rfl⟩ := hn
        exact .inl (hnull f hf _ huw hoptional)
      · exact .inr ⟨u, hdeclared f hf u _ huw hn⟩
  | payload ht hv hb =>
    obtain hnull | ⟨v, hshaped⟩ := h
    · simp at hnull
    cases hshaped with
    | branch ht' hv' _ hb' hvalue =>
      cases ht.symm.trans (hg.behind_eq_iff.2 ht')
      cases hv.symm.trans hv'
      cases hb.symm.trans hb'
      exact .inr ⟨_, hvalue⟩

/-- A variant that has been read has a branch at its position. -/
theorem FromRow.stray?_eq_none (hg : ResolvedTypes doc g) {visit : TypeExpr × HostValue}
    (h : FromRow g visit) : Call.stray? g visit = none := by
  obtain ⟨expr, value⟩ := visit
  cases value with
  | variant position payload =>
    obtain hnull | ⟨v, hv⟩ := h
    · simp at hnull
    cases hv with
    | branch ht hv _ hb _ =>
      have hlt := (List.getElem?_eq_some_iff.1 hb).1
      simp [Call.stray?, hg.behind_eq_iff.2 ht, hv, hlt]
  | _ => rfl

/-- A value that has the shape of a type is sent in its wire form. -/
theorem reduce_of_shaped (hg : ResolvedTypes doc g) (h : Shaped g expr v value) :
    Call.reduce g expr value = .ok value.toWire := by
  refine Call.reduce_of_forall_reach fun visit hreach => ?_
  have hread : FromRow g visit := by
    induction hreach with
    | refl => exact .inr ⟨v, h⟩
    | tail _ hbelow ih => exact ih.below hg hbelow
  exact hread.stray?_eq_none hg

/-- No text inside a value reads as a moment of a negative year. -/
def NoNegativeYear (v : Json) : Prop :=
  ∀ text m, ReflTransGen Json.Part (.text text) v → Time.Moment.parse? text = some m → 0 ≤ m.year

theorem NoNegativeYear.part {u : Json} (h : NoNegativeYear v) (hu : Json.Part u v) :
    NoNegativeYear u :=
  fun text m ht hm => h text m (ht.tail hu) hm

/-- No text inside a value does when it is none itself and its parts have none. -/
theorem noNegativeYear_iff : NoNegativeYear v ↔
    (∀ text m, v = .text text → Time.Moment.parse? text = some m → 0 ≤ m.year) ∧
      ∀ u, Json.Part u v → NoNegativeYear u := by
  constructor
  · intro h
    refine ⟨?_, fun _ => h.part⟩
    rintro text m rfl hm
    exact h text m .refl hm
  · rintro ⟨hself, hparts⟩ text m ht hm
    rcases ht.cases_tail with rfl | ⟨u, ht, hu⟩
    · exact hself text m rfl hm
    · exact hparts u hu text m ht hm

theorem noNegativeYear_null : NoNegativeYear .null := noNegativeYear_iff.2 ⟨nofun, nofun⟩

theorem noNegativeYear_bool {b : Bool} : NoNegativeYear (.bool b) :=
  noNegativeYear_iff.2 ⟨nofun, nofun⟩

theorem noNegativeYear_int {n : Int} : NoNegativeYear (.int n) :=
  noNegativeYear_iff.2 ⟨nofun, nofun⟩

theorem noNegativeYear_text {text : String} : NoNegativeYear (.text text) ↔
    (Time.Moment.parse? text).all (fun m => 0 ≤ m.year) = true := by
  rw [noNegativeYear_iff, Option.all_eq_true]
  constructor
  · intro h m hm
    exact decide_eq_true (h.1 text m rfl hm)
  · intro h
    refine ⟨?_, nofun⟩
    rintro _ m ⟨⟩ hm
    exact of_decide_eq_true (h m hm)

theorem noNegativeYear_array {items : List Json} :
    NoNegativeYear (.array items) ↔ ∀ u ∈ items, NoNegativeYear u := by
  rw [noNegativeYear_iff]
  constructor
  · exact fun h u hu => h.2 u (.item hu)
  · intro h
    refine ⟨nofun, ?_⟩
    rintro u ⟨hu⟩
    exact h u hu

theorem noNegativeYear_object {entries : List (String × Json)} :
    NoNegativeYear (.object entries) ↔ ∀ e ∈ entries, NoNegativeYear e.2 := by
  rw [noNegativeYear_iff]
  constructor
  · exact fun h e he => h.2 e.2 (.entry he)
  · intro h
    refine ⟨nofun, ?_⟩
    rintro u hu
    cases hu with
    | entry hu => exact h _ hu

/-- The wire forms of entries that have been read are read as the same entries, if those of the
declared fields are. -/
theorem EntriesRead.toWire {s : Abi.Struct} {R R' : Abi.Field → Json → HostValue → Prop}
    {entries : List (String × Json)} {values : List (String × HostValue)}
    (h : EntriesRead g s R entries values)
    (hR : ∀ f v w, (f.name, v) ∈ entries → R f v w → R' f w.toWire w) :
    EntriesRead g s R' (HostValue.entriesToWire values) values := by
  rw [HostValue.entriesToWire_eq_map]
  -- An entry of the wire form comes from an entry of the row.
  have hpairs {key : String} {u : Json} {w : HostValue} (huw : ((key, u), (key, w)) ∈
      (values.map fun e => (e.1, e.2.toWire)).zip values) :
      u = w.toWire ∧ ∃ v, ((key, v), (key, w)) ∈ entries.zip values := by
    rw [← List.map_prod_right_eq_zip] at huw
    obtain ⟨⟨_, w⟩, hm, hpair⟩ := List.mem_map.1 huw
    cases hpair
    exact ⟨rfl, exists_entry_left h.keys hm⟩
  refine ⟨by rw [List.map_map]; rfl, ?_, ?_, ?_, h.required⟩
  · intro f hf u w huw hn
    obtain ⟨rfl, v, hvw⟩ := hpairs huw
    refine hR f v w (List.of_mem_zip hvw).1 (h.declared f hf v w hvw ?_)
    rintro ⟨hoptional, rfl⟩
    rw [h.null f hf w hvw hoptional] at hn
    exact hn ⟨hoptional, rfl⟩
  · intro f hf w huw _
    obtain ⟨hwire, -⟩ := hpairs huw
    exact eq_wire_null_of_toWire hwire.symm
  · intro key u w huw hkey
    obtain ⟨rfl, v, hvw⟩ := hpairs huw
    rw [h.other key v w hvw hkey]
    rfl

/-- The wire form of a value that has been read has the same shape. -/
theorem shaped_toWire (h : Shaped g expr v value) (hy : NoNegativeYear v) :
    Shaped g expr value.toWire value := by
  induction h with
  | asIs hr => exact .asIs hr
  | flag ht _ => exact .flag ht (.bool _)
  | moment ht hm =>
    have hyear := hy _ _ .refl hm
    exact .moment ht (Time.Moment.parse?_text hyear (Time.Moment.year_bounds_of_parse? hm).2)
  | asset ht ha =>
    exact .asset ht (Token.Asset.parse_text (Token.Asset.leastUnits_lt_of_parse ha))
  | @items _ element items values hr ht hlength _ ih =>
    rw [HostValue.toWire, HostValue.itemsToWire_eq_map]
    refine .items hr ht (by rw [List.length_map]) ?_
    intro u w huw
    rw [← List.map_prod_right_eq_zip] at huw
    obtain ⟨w, hm, hpair⟩ := List.mem_map.1 huw
    cases hpair
    obtain ⟨v, hvw⟩ := Outcome.exists_mem_zip_right hlength hm
    exact ih v w hvw (hy.part (.item (List.of_mem_zip hvw).1))
  | fields hr ht hs hkeys _ hnull hother hrequired ih =>
    have hwire := EntriesRead.toWire (g := g) ⟨hkeys, ih, hnull, hother, hrequired⟩
      fun f v w hv hread => hread (hy.part (.entry hv))
    exact .fields hr ht hs hwire.keys hwire.declared hwire.null hwire.other hwire.required
  | @branch _ name variant tag payload b value position ht hv _ hb _ ih =>
    rw [HostValue.toWire]
    have htag : tagged? variant (.int position) = some b := by
      simp [tagged?, Json.natural?, Abi.Variant.branch?, hb]
    exact .branch ht hv htag hb (ih (hy.part (.item (by simp))))

/-- A value read from a row can be sent back at its type, as its wire form, and reads as itself
again, wherever it then stands. -/
theorem coerce_round_trip (hg : Abi.resolve doc = .ok g) (hy : NoNegativeYear v)
    (h : (Coercer.ofGraph g).coerce place expr v = .ok value) (again : ValuePath) :
    Call.reduce g expr value = .ok value.toWire ∧
      (Coercer.ofGraph g).coerce again expr value.toWire = .ok value := by
  have ht := (Abi.resolve_eq_ok_iff.1 hg).toResolvedTypes
  have hs := shaped_of_coerce ht h
  exact ⟨reduce_of_shaped ht hs, coerce_of_shaped ht (shaped_toWire hs hy) again⟩

theorem memberRow_round_trip : Abi.resolve Abi.membership = .ok Abi.membershipGraph ∧
    NoNegativeYear memberRow ∧
    (Coercer.ofGraph Abi.membershipGraph).coerce ⟨"member", []⟩ (.named "member") memberRow =
      .ok memberValue ∧
    Call.reduce Abi.membershipGraph (.named "member") memberValue = .ok memberValue.toWire ∧
    (Coercer.ofGraph Abi.membershipGraph).coerce ⟨"again", []⟩ (.named "member")
      memberValue.toWire = .ok memberValue := by
  have hnull : NoNegativeYear .null := noNegativeYear_iff.2 ⟨nofun, nofun⟩
  have hint : NoNegativeYear (.int 1) := noNegativeYear_iff.2 ⟨nofun, nofun⟩
  have hbool : NoNegativeYear (.bool false) := noNegativeYear_iff.2 ⟨nofun, nofun⟩
  have hy : NoNegativeYear memberRow := by
    simp only [memberRow, noNegativeYear_object, noNegativeYear_array, noNegativeYear_text,
      List.forall_mem_cons, List.not_mem_nil, false_implies, implies_true, true_and, and_true,
      hnull, hint, hbool]
    decide
  have hread : (Coercer.ofGraph Abi.membershipGraph).coerce ⟨"member", []⟩ (.named "member")
      memberRow = .ok memberValue := rfl
  exact ⟨Abi.resolve_membership, hy, hread,
    coerce_round_trip Abi.resolve_membership hy hread ⟨"again", []⟩⟩

end ContractBinding.Table
