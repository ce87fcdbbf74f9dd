import ContractBinding.Proofs.Table.Conformance
import ContractBinding.Proofs.Table.Misreading

/-!
# What a row is refused for

A row that holds a value which its type does not have is refused with the place of a value. The
steps to this place lead down the row and down the types of the schema alike, and end at a value
that misses what its type asks for, or at a field without a value that needs one.
-/

namespace ContractBinding

/-- The text of a path is that of its root and then those of its steps. -/
theorem Host.ValuePath.text_eq (place : Host.ValuePath) :
    place.text = place.root ++ String.join (place.steps.map Host.Step.text) := by
  obtain ⟨root, steps⟩ := place
  unfold text
  dsimp only
  induction steps generalizing root with
  | nil => simp
  | cons step rest ih =>
    rw [List.foldl_cons, ih, List.map_cons, String.join_cons, String.append_assoc]

namespace Table

open Abi (Graph ResolvedTypes)
open Host (ValuePath Step)
open Outcome (RefusedBy)
open Relation (ReflTransGen)

/-- What the schema asks of a value: to be a row of a struct, or to have a type. -/
inductive Slot where
  | row (s : Abi.Struct)
  | value (expr : TypeExpr)

namespace Slot

/-- The slot takes objects of a struct. -/
inductive HasStruct (g : Graph) : Slot → Abi.Struct → Prop where
  | row {s : Abi.Struct} : HasStruct g (.row s) s
  | value {expr : TypeExpr} {name : String} {s : Abi.Struct}
    (ht : g.StandsFor expr (.named name)) (hs : g.struct? name = some s) :
    HasStruct g (.value expr) s

/-- A value is acceptable: a row is an object whose entries conform to the struct, and any other
value conforms to its type. -/
def Accepts (g : Graph) : Slot → Json → Prop
  | .row s, v => ∃ entries, v = .object entries ∧ EntriesConform g s entries
  | .value expr, v => Conforms g expr v

end Slot

/-- One step leads from a value in its slot to a part of it in the slot of the part. -/
inductive StepsTo (g : Graph) : Slot → Json → Step → Slot → Json → Prop where
  | field {slot : Slot} {s : Abi.Struct} {f : Abi.Field} {entries : List (String × Json)} {u : Json}
    (hslot : slot.HasStruct g s) (hf : f ∈ s.fields) (hu : (f.name, u) ∈ entries)
    (hn : ¬ (f.type.optional = true ∧ u = .null)) :
    StepsTo g slot (.object entries) (.field f.name) (.value f.type.expr) u
  | item {expr element : TypeExpr} {items : List Json} {position : Nat} {u : Json}
    (ht : g.StandsFor expr (.array element)) (hu : items[position]? = some u) :
    StepsTo g (.value expr) (.array items) (.item position) (.value element) u
  | branch {expr : TypeExpr} {name : String} {variant : Abi.Variant} {tag payload : Json}
    {b : Abi.Branch} {position : Nat} (ht : g.StandsFor expr (.named name))
    (hv : g.variant? name = some variant) (htag : Selects variant tag b)
    (hb : variant.branches[position]? = some b) :
    StepsTo g (.value expr) (.array [tag, payload]) (.branch position) (.value b.type) payload

/-- Steps lead from a value in its slot down to a part of it in the slot of the part. -/
inductive Leads (g : Graph) : Slot → Json → List Step → Slot → Json → Prop where
  | here {slot : Slot} {v : Json} : Leads g slot v [] slot v
  | step {slot next last : Slot} {v u w : Json} {step : Step} {rest : List Step}
    (h : StepsTo g slot v step next u) (hrest : Leads g next u rest last w) :
    Leads g slot v (step :: rest) last w

/-- A value misses what its slot asks for, whatever its parts are. -/
inductive Misfit (g : Graph) : Slot → Expectation → Json → Prop where
  | object {slot : Slot} {s : Abi.Struct} {v : Json} (hslot : slot.HasStruct g s)
    (hv : ∀ entries, v ≠ .object entries) : Misfit g slot .object v
  | list {expr element : TypeExpr} {v : Json} (ht : g.StandsFor expr (.array element))
    (hv : ∀ items, v ≠ .array items) : Misfit g (.value expr) .list v
  | pair {expr : TypeExpr} {name : String} {variant : Abi.Variant} {v : Json}
    (ht : g.StandsFor expr (.named name)) (hvariant : g.variant? name = some variant)
    (hv : ∀ tag payload, v ≠ .array [tag, payload]) : Misfit g (.value expr) .pair v
  | flag {expr : TypeExpr} {v : Json} (ht : g.StandsFor expr (.primitive .bool))
    (hv : ∀ b, ¬ IsFlag v b) : Misfit g (.value expr) .flag v
  | moment {expr : TypeExpr} {v : Json} (ht : g.StandsFor expr (.primitive .timePointSec))
    (hv : ∀ text m, v = .text text → Time.Moment.parse? text ≠ some m) :
    Misfit g (.value expr) .moment v
  | asset {expr : TypeExpr} {v : Json} (ht : g.StandsFor expr (.primitive .asset))
    (hv : ∀ text a, v = .text text → Token.Asset.parse text ≠ .ok a) :
    Misfit g (.value expr) .asset v

/-- What lies at the end of steps is why a value is not acceptable in its slot. -/
inductive Culprit (g : Graph) (slot : Slot) (v : Json) : List Step → Expectation → Json → Prop where
  /-- A value that misses what its own slot asks for. -/
  | misfit {last : Slot} {steps : List Step} {expected : Expectation} {found : Json}
    (hsteps : Leads g slot v steps last found) (hmisfit : Misfit g last expected found)
    (hrefused : ¬ last.Accepts g found) : Culprit g slot v steps expected found
  /-- A key of an object that is missing and may not be. -/
  | absent {last : Slot} {way : List Step} {s : Abi.Struct} {f : Abi.Field}
    {entries : List (String × Json)} (hway : Leads g slot v way last (.object entries))
    (hlast : last.HasStruct g s) (hf : f ∈ s.fields) (hmissing : f.name ∉ entries.map Prod.fst)
    (hneeded : ¬ MayBeAbsent g f) : Culprit g slot v (way ++ [.field f.name]) .present .null

variable {doc : Abi.Document} {g : Graph} {s : Abi.Struct} {slot next last : Slot}
  {place : ValuePath} {expr : TypeExpr} {v u w found : Json} {step : Step}
  {steps : List Step} {expected : Expectation} {fault : CallFault}
  {entries : List (String × Json)}

/-- What is to blame for a part is to blame for the whole. -/
theorem Culprit.above (h : Culprit g next u steps expected found)
    (hstep : StepsTo g slot v step next u) : Culprit g slot v (step :: steps) expected found := by
  cases h with
  | misfit hsteps hmisfit hrefused => exact .misfit (.step hstep hsteps) hmisfit hrefused
  | absent hway hlast hf hmissing hneeded =>
    exact .absent (.step hstep hway) hlast hf hmissing hneeded

/-! ### Following steps -/

/-- The part of a value that steps lead to, if there is one. -/
def follow? (steps : List Step) (v : Json) : Option Json :=
  steps.foldlM (fun u step => step.follow? u) v

/-- No object in a value has two entries under one key. -/
def DistinctKeys (v : Json) : Prop :=
  ∀ entries, ReflTransGen Json.Part (.object entries) v → (entries.map Prod.fst).Nodup

/-- Parts of a value have distinct keys where the value has. -/
theorem DistinctKeys.part (hd : DistinctKeys v) (h : Json.Part u v) : DistinctKeys u :=
  fun entries hentries => hd entries (hentries.tail h)

/-- A step of the schema leads to a part. -/
theorem StepsTo.part (h : StepsTo g slot v step next u) : Json.Part u v := by
  cases h with
  | field _ _ hu _ => exact .entry hu
  | item _ hu => exact .item (List.mem_of_getElem? hu)
  | branch _ _ _ _ => exact .item (by simp)

/-- A step of the schema is a step in the value. -/
theorem StepsTo.follow?_eq (h : StepsTo g slot v step next u) (hd : DistinctKeys v) :
    step.follow? v = some u := by
  cases h with
  | field _ _ hu _ => exact (Abi.lookup_eq_some_iff_mem (hd _ .refl)).2 hu
  | item _ hu => exact hu
  | branch _ _ _ _ => rfl

/-- Steps of the schema are steps in the value. -/
theorem Leads.follow?_eq (h : Leads g slot v steps last w) (hd : DistinctKeys v) :
    follow? steps v = some w := by
  induction h with
  | here => rfl
  | step h _ ih =>
    unfold follow?
    rw [List.foldlM_cons, h.follow?_eq hd]
    exact ih (hd.part h.part)

/-- The steps to a culprit lead to what has been found, or to nothing where a value is missing. -/
theorem Culprit.follow?_eq (h : Culprit g slot v steps expected found) (hd : DistinctKeys v) :
    follow? steps v = if expected = .present then none else some found := by
  cases h with
  | misfit hsteps hmisfit _ =>
    have hexpected : expected ≠ .present := by cases hmisfit <;> simp
    rw [if_neg hexpected, hsteps.follow?_eq hd]
  | absent hway _ _ hmissing _ =>
    have hnone : (Step.field _).follow? (.object _) = none :=
      Option.not_isSome_iff_eq_none.1 (mt Abi.isSome_lookup_iff.1 hmissing)
    have hfollowed := hway.follow?_eq hd
    unfold follow? at hfollowed ⊢
    rw [if_pos rfl, List.foldlM_append, hfollowed]
    exact congrArg (· >>= pure) hnone

/-! ### Refusals -/

/-- A fault at a place tells the steps from there to a culprit. -/
def Blames (g : Graph) (slot : Slot) (v : Json) (place : ValuePath) : CallFault → Prop
  | .domain culprit expected found => ∃ steps, culprit = ⟨place.root, place.steps ++ steps⟩ ∧
      Culprit g slot v steps expected found
  | _ => True

/-- A fault that blames a part blames the whole for it. -/
theorem Blames.above (h : Blames g next u (place.push step) fault)
    (hstep : StepsTo g slot v step next u) : Blames g slot v place fault := by
  cases fault with
  | domain culprit expected found =>
    obtain ⟨steps, rfl, h⟩ := h
    exact ⟨step :: steps, by simp [ValuePath.push], h.above hstep⟩
  | _ => trivial

/-- A misfit is blamed where it stands. -/
theorem Blames.here (hmisfit : Misfit g slot expected v) (hrefused : ¬ slot.Accepts g v) :
    Blames g slot v place (.domain place expected v) :=
  ⟨[], by simp, .misfit .here hmisfit hrefused⟩

/-- A field without a value is blamed at the object that lacks it. -/
theorem Blames.absent (hslot : slot.HasStruct g s) {f : Abi.Field} (hf : f ∈ s.fields)
    (hmissing : f.name ∉ entries.map Prod.fst) (hneeded : ¬ MayBeAbsent g f) :
    Blames g slot (.object entries) place
      (.domain (place.push (.field f.name)) .present .null) := by
  have hhere : Leads g slot (.object entries) [] slot (.object entries) := .here
  exact ⟨[.field f.name], rfl, .absent hhere hslot hf hmissing hneeded⟩

/-- What is refused along a type does not conform to the type. -/
theorem not_conforms_of_coerce (hg : ResolvedTypes doc g)
    (h : (Coercer.ofGraph g).coerce place expr v = .error fault) : ¬ Conforms g expr v := by
  intro hv
  obtain ⟨value, hvalue⟩ := exists_shaped hg hv
  cases h.symm.trans (coerce_of_shaped hg hvalue place)

/-- What is refused along a built-in type is a misfit. -/
theorem misfit_of_readScalar {kind : Reinterpretation}
    (ht : g.StandsFor expr (.primitive (builtIn kind)))
    (h : readScalar kind place v = .error fault) :
    Misfit g (.value expr) (expectation kind) v := by
  have hno : ∀ value, readScalar kind place v ≠ .ok value := by simp [h]
  cases kind with
  | bool => exact .flag ht fun b hb => hno _ (readScalar_bool.2 ⟨b, hb, rfl⟩)
  | timePointSec =>
    exact .moment ht fun text m hv hm => hno _ (readScalar_timePointSec.2 ⟨text, m, hv, hm, rfl⟩)
  | asset =>
    exact .asset ht fun text a hv ha => hno _ (readScalar_asset.2 ⟨text, a, hv, ha, rfl⟩)

/-- Entries that are refused along a struct have a culprit. -/
theorem blames_of_collect (hg : ResolvedTypes doc g) (hslot : slot.HasStruct g s)
    (hparts : ∀ f ∈ s.fields, ∀ u, (f.name, u) ∈ entries → ∀ fault,
      (Coercer.ofGraph g).coerce (place.push (.field f.name)) f.type.expr u = .error fault →
        Blames g (.value f.type.expr) u (place.push (.field f.name)) fault) :
    RefusedBy (Blames g slot (.object entries) place) ((Coercer.ofGraph g).collect place s
      ((Coercer.ofGraph g).coerceEntries place s entries)) := by
  intro fault h
  rcases Coercer.collect_refusedBy s entries fault h with
    ⟨f, hf, u, hu, hn, hcoerce⟩ | ⟨f, hf, hmissing, hlack, rfl⟩
  · exact (hparts f hf u hu fault hcoerce).above (.field hslot hf hu hn)
  · exact .absent hslot hf hmissing (mt (mayLack_iff_mayBeAbsent hg).2 hlack)

/-- A value that is refused along its type has a culprit. -/
theorem blames_of_coerce (hg : ResolvedTypes doc g)
    (h : (Coercer.ofGraph g).coerce place expr v = .error fault) :
    Blames g (.value expr) v place fault := by
  induction v using Json.part_wellFounded.induction generalizing expr place fault with
  | _ v ih =>
    -- If the fault is at the place itself, the value is its own culprit; else a part has been
    -- refused with the same fault, and the step to the part comes before its steps.
    have hrefused : ¬ (Slot.value expr).Accepts g v := not_conforms_of_coerce hg h
    have hreading := readAs_reading hg expr
    generalize hr : (Coercer.ofGraph g).reading expr = reading at hreading
    cases hreading with
    | asIs _ => cases h.symm.trans (Coercer.coerce_of_asIs hr)
    | scalar ht hk =>
      rw [Coercer.coerce_of_scalar hr] at h
      cases readScalar_refusedBy _ place v fault h
      exact .here (misfit_of_readScalar (eq_builtIn hk ▸ ht) h) hrefused
    | items _ ht =>
      rcases Coercer.coerce_refusedBy_of_items hr v fault h with
        ⟨hv, rfl⟩ | ⟨items, position, u, rfl, hu, hcoerce⟩
      · exact .here (.list ht hv) hrefused
      · have hstep : StepsTo g (.value expr) (.array items) (.item position) (.value _) u :=
          .item ht hu
        exact (ih u hstep.part hcoerce).above hstep
    | fields _ ht hs =>
      have hslot := Slot.HasStruct.value ht hs
      rcases Coercer.coerce_refusedBy_of_fields hr v fault h with
        ⟨hv, rfl⟩ | ⟨entries, rfl, hcollect⟩
      · exact .here (.object hslot hv) hrefused
      · exact blames_of_collect hg hslot (fun f _ u hu _ => ih u (.entry hu)) fault hcollect
    | branches ht hv =>
      rcases Coercer.coerce_refusedBy_of_branches hr v fault h with
        ⟨hpair, rfl⟩ | ⟨tag, payload, rfl, rfl | ⟨b, htag, hcoerce⟩⟩
      · exact .here (.pair ht hv hpair) hrefused
      · trivial
      · have hstep : StepsTo g (.value expr) (.array [tag, payload]) (.branch b.index)
            (.value b.type) payload :=
          .branch ht hv (tagged?_eq_some_iff.1 htag) (getElem?_of_tagged? hg hv htag)
        exact (ih payload hstep.part hcoerce).above hstep

/-- A row that is refused along its struct has a culprit. -/
theorem blames_of_coerceStruct (hg : ResolvedTypes doc g) (hs : s ∈ g.structs)
    (h : (Coercer.ofGraph g).coerceStruct place s v = .error fault) :
    Blames g (.row s) v place fault := by
  have hrefused : ¬ (Slot.row s).Accepts g v := by
    rintro ⟨entries, rfl, hentries⟩
    obtain ⟨values, hvalues⟩ := (exists_entriesRead_iff hg hs).2 hentries
    cases h.symm.trans ((coerceStruct_eq_ok_iff hg hs).2 ⟨entries, rfl, hvalues⟩)
  cases v with
  | object entries =>
    exact blames_of_collect hg .row (fun f _ u _ _ => blames_of_coerce hg) fault h
  | _ =>
    cases h
    exact .here (.object .row (by simp)) hrefused

/-- A row that is refused for a value is refused for a culprit in it. The place of the fault is
that of the row and then the steps down to the culprit, which lead to the value that has been
found, or nowhere where a value is missing. -/
theorem exists_culprit (h : Abi.resolve doc = .ok g) (hs : s ∈ g.structs)
    (hrow : (Coercer.ofGraph g).coerceStruct ⟨s.name, []⟩ s v =
      .error (.domain place expected found)) :
    ∃ steps, place.text = s.name ++ String.join (steps.map Step.text) ∧
      Culprit g (.row s) v steps expected found ∧
      (DistinctKeys v → follow? steps v = if expected = .present then none else some found) := by
  have hg := (Abi.resolve_eq_ok_iff.1 h).toResolvedTypes
  obtain ⟨steps, rfl, hculprit⟩ := blames_of_coerceStruct hg hs hrow
  exact ⟨steps, ValuePath.text_eq _, hculprit, hculprit.follow?_eq⟩

/-- The struct of members of the membership contract. -/
def memberStruct : Abi.Struct :=
  let on : Abi.Field := ⟨"on", ⟨.named "flags", false, false⟩, "entry"⟩
  let joined : Abi.Field := ⟨"joined", ⟨.primitive .timePointSec, false, true⟩, "member"⟩
  let prize : Abi.Field := ⟨"prize", ⟨.named "reward", true, false⟩, "member"⟩
  ⟨"member", some "entry", [joined, prize], [on, joined, prize]⟩

/-- A member whose prize is no amount. -/
def goldRow : Json := .object [("joined", .null), ("on", .array [.int 1]),
  ("prize", .array [.text "asset", .text "gold"])]

theorem exists_culprit_goldRow : Abi.resolve Abi.membership = .ok Abi.membershipGraph ∧
    memberStruct ∈ Abi.membershipGraph.structs ∧
    (Coercer.ofGraph Abi.membershipGraph).coerceStruct ⟨"member", []⟩ memberStruct goldRow =
      .error (.domain ⟨"member", [.field "prize", .branch 0]⟩ .asset (.text "gold")) ∧
    ∃ steps, "member.prize<0>" = "member" ++ String.join (steps.map Step.text) ∧
      Culprit Abi.membershipGraph (.row memberStruct) goldRow steps .asset (.text "gold") := by
  have hs : memberStruct ∈ Abi.membershipGraph.structs := by decide
  have hrow : (Coercer.ofGraph Abi.membershipGraph).coerceStruct ⟨"member", []⟩ memberStruct
      goldRow = .error (.domain ⟨"member", [.field "prize", .branch 0]⟩ .asset (.text "gold")) :=
    rfl
  obtain ⟨steps, htext, hculprit, -⟩ := exists_culprit Abi.resolve_membership hs hrow
  exact ⟨Abi.resolve_membership, hs, hrow, steps, htext, hculprit⟩

end Table

end ContractBinding
