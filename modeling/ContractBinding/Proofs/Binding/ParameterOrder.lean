import ContractBinding.Proofs.Abi.Flattening
import ContractBinding.Proofs.Binding.Signature

/-!
# The order of parameters

In a signature no parameter that has to be given may follow one that may be left out. The mark of
a parameter is a matter of its own field, so the signature of an action is legal exactly where the
extensions are the last fields along base links: one field after an extension, be it the extension
of an ancestor, is enough to spoil it.
-/

namespace ContractBinding

open Abi (Action Field Graph)

/-- What holds of an entry holds of every later one. -/
def Trailing {α : Type} (holds : α → Prop) (entries : List α) : Prop :=
  entries.Pairwise fun earlier later => holds earlier → holds later

/-- Partners are alike in this. -/
theorem trailing_iff_of_forall₂ {α β : Type} {P : α → Prop} {Q : β → Prop} {xs : List α}
    {ys : List β} (h : List.Forall₂ (fun x y => P x ↔ Q y) xs ys) :
    Trailing P xs ↔ Trailing Q ys := by
  have htrailing {γ : Type} (R : γ → Prop) (zs : List γ) :
      Trailing R zs ↔ (zs.map R).Pairwise fun p q => p → q := by
    rw [List.pairwise_map, Trailing]
  rw [htrailing P, htrailing Q, Outcome.map_eq_map h fun _ _ hxy => propext hxy]

namespace Abi

/-- A field that older rows lack. -/
def Field.IsExtension (f : Field) : Prop := f.type.binaryExtension = true

/-- Along base links to the struct of a name, the farthest ancestor first, every field after an
extension is an extension. -/
def Document.TrailingExtensions (doc : Document) (name : String) : Prop :=
  ∀ decl ∈ doc.structs, decl.name = name → ∀ line, doc.Lineage decl line →
    Trailing (fun d : FieldDecl => '$' ∈ d.token.toList) (line.reverse.flatMap StructDecl.fields)

/-- The extensions of an action are its last fields exactly where they are the last that the
document has along base links to its struct. -/
theorem Resolution.trailing_isExtension_iff {doc : Document} {g : Graph} (h : Resolution doc g)
    {a : Action} (ha : a ∈ g.actions) :
    Trailing Field.IsExtension a.fields ↔ doc.TrailingExtensions a.structName := by
  obtain ⟨s, hs, hname, hfields⟩ := h.actions_typed ha
  obtain ⟨decl, hdecl, hd, line, hline, hread⟩ := h.exists_declLineage hs
  have hdistinct := Document.structs_distinct h.distinct
  -- Whether a token has the mark says whether its field is an extension.
  have hmarks : List.Forall₂
      (fun (d : FieldDecl) (f : Field) => '$' ∈ d.token.toList ↔ f.IsExtension)
      (line.reverse.flatMap StructDecl.fields) s.fields :=
    hread.imp fun _ _ h => (FieldType.marks_of_parse h).1.symm
  rw [hfields, ← hname, ← trailing_iff_of_forall₂ hmarks]
  constructor
  · intro htrailing other hother ho found hfound
    cases List.inj_on_of_nodup_map hdistinct hother hdecl (ho.trans hd.symm)
    rwa [hfound.unique hdistinct hline]
  · exact fun htrailing => htrailing decl hdecl hd line hline

end Abi

namespace Binding

variable {doc : Abi.Document} {g : Graph} {contract : String} {m : Mapping} {action : Action}
  {fields : List Field}

/-- A parameter is printed with the mark of one that may be left out. -/
def Parameter.Marked (p : Parameter) : Prop := (p.name ++ "?").toList <+: p.text.toList

/-- The mark is printed for the parameters that may be left out. -/
theorem Parameter.marked_iff {p : Parameter} : p.Marked ↔ p.optional = true := by
  unfold Marked text
  cases p.optional with
  | false =>
    show _ <+: (p.name ++ "" ++ ": " ++ p.type.text).toList ↔ _
    simp [String.toList_append]
  | true =>
    show _ <+: (p.name ++ "?" ++ ": " ++ p.type.text).toList ↔ _
    simp [String.toList_append]

/-- No parameter without the mark follows one with it. The options at the end of every signature
have the mark. -/
def Legal (parameters : List Parameter) : Prop := Trailing Parameter.Marked parameters

/-- The parameters with the mark are those from a position on. -/
def MarkedFrom (position : Nat) (parameters : List Parameter) : Prop :=
  ∀ (i : Nat) (p : Parameter), parameters[i]? = some p → (p.Marked ↔ position ≤ i)

/-- The parameters of extensions are those with the mark. -/
theorem forall₂_marked (m : Mapping) (fields : List Field) :
    List.Forall₂ (fun f p => f.IsExtension ↔ p.Marked) fields (Parameter.ofFields m fields) :=
  (forall₂_ofFields m fields).imp fun f p hp => by
    rw [Parameter.marked_iff, hp.1, Field.IsExtension]

/-- A signature is legal exactly where the extensions are the last fields. -/
theorem legal_iff_fields :
    Legal (Parameter.ofFields m fields) ↔ Trailing Field.IsExtension fields :=
  (trailing_iff_of_forall₂ (forall₂_marked m fields)).symm

/-- A parameter after the least number of arguments has the mark. -/
theorem marked_of_requiredArity_le {i : Nat} {p : Parameter}
    (hp : (Parameter.ofFields m action.fields)[i]? = some p) (hi : action.requiredArity ≤ i) :
    p.Marked := by
  obtain ⟨f, hf, hmark⟩ := Outcome.getElem?_left (forall₂_marked m action.fields) hp
  by_contra hno
  have hrequired : f.type.binaryExtension = false := by
    simpa [← hmark, Field.IsExtension] using hno
  have hlt := Call.lt_requiredArity_iff_position.2 ⟨i, f, hf, Nat.le_refl i, hrequired⟩
  omega

/-- A signature is legal exactly where the parameters with the mark are those after the least number
of arguments. -/
theorem legal_iff_markedFrom :
    Legal (Parameter.ofFields m action.fields) ↔
      MarkedFrom action.requiredArity (Parameter.ofFields m action.fields) := by
  rw [Legal, Trailing, List.pairwise_iff_getElem]
  constructor
  · intro hlegal i p hp
    refine ⟨fun hmarked => ?_, marked_of_requiredArity_le hp⟩
    -- Before the least number of arguments there is a field to come that is no extension.
    by_contra hlt
    obtain ⟨j, f, hf, hij, hrequired⟩ :=
      Call.lt_requiredArity_iff_position.1 (Nat.lt_of_not_le hlt)
    obtain ⟨q, hq, hmark⟩ := Outcome.getElem?_right (forall₂_marked m action.fields) hf
    have hunmarked : ¬ q.Marked := by simp [← hmark, Field.IsExtension, hrequired]
    obtain ⟨hilt, rfl⟩ := List.getElem?_eq_some_iff.1 hp
    obtain ⟨hjlt, rfl⟩ := List.getElem?_eq_some_iff.1 hq
    rcases Nat.lt_or_eq_of_le hij with hij | rfl
    · exact hunmarked (hlegal i j hilt hjlt hij hmarked)
    · exact hunmarked hmarked
  · intro hfrom i j hi hj hij hmarked
    have hle := (hfrom i _ (List.getElem?_eq_getElem hi)).1 hmarked
    exact (hfrom j _ (List.getElem?_eq_getElem hj)).2 (by omega)

/-- The method with the name of an action is that of the action. -/
theorem eq_actionOf (hd : (g.actions.map Action.name).Nodup) (ha : action ∈ g.actions)
    {method : ActionMethod} (hm : method ∈ (Interface.ofGraph g contract).actions)
    (hn : method.name = action.name) :
    method = Interface.actionOf (Mapping.ofGraph g contract) action := by
  obtain ⟨other, hother, rfl⟩ := List.mem_map.1 hm
  rw [List.inj_on_of_nodup_map hd hother ha hn]

/-- The parameters of an action have marks where its fields are extensions, among them all after the
least number of arguments. They are legal exactly where no others have marks, and that is where the
document has the extensions last along base links. -/
structure OrderedParameters (doc : Abi.Document) (action : Action) (parameters : List Parameter) :
    Prop where
  marks : List.Forall₂ (fun f p => f.IsExtension ↔ p.Marked) action.fields parameters
  tail : ∀ (position : Nat) (p : Parameter), parameters[position]? = some p →
    action.requiredArity ≤ position → p.Marked
  legal_iff : Legal parameters ↔ MarkedFrom action.requiredArity parameters
  legal_iff_document : Legal parameters ↔ doc.TrailingExtensions action.structName

/-- The code of an accepted document marks the parameters of an action field by field: its signature
is legal exactly where the document has the extensions last. -/
theorem orderedParameters_of_emit (hg : Abi.resolve doc = .ok g) {header : Header} {text : String}
    (he : emit g contract header = .ok text) (ha : action ∈ g.actions) :
    ∃ i, interface g contract = .ok i ∧ i.text header = text ∧
      i.listing.WrittenIn header.text text ∧
      (∃ method ∈ i.actions, method.name = action.name) ∧
      ∀ method ∈ i.actions, method.name = action.name →
        OrderedParameters doc action method.parameters := by
  have hr := Abi.resolve_eq_ok_iff.1 hg
  obtain ⟨i, hi, rfl⟩ := emit_eq_ok_iff.1 he
  refine ⟨i, hi, rfl, i.writtenIn_text header, ?_⟩
  obtain ⟨-, -, rfl⟩ := interface_eq_ok_iff.1 hi
  refine ⟨⟨_, List.mem_map_of_mem ha, rfl⟩, fun method hm hn => ?_⟩
  rw [eq_actionOf hr.actions_distinct ha hm hn]
  constructor
  case marks => exact forall₂_marked _ _
  case tail => exact fun _ _ => marked_of_requiredArity_le
  case legal_iff => exact legal_iff_markedFrom
  case legal_iff_document => exact legal_iff_fields.trans (hr.trailing_isExtension_iff ha)

/-- Those who join give the prize last, which they may leave out. -/
theorem join_orderedParameters :
    Abi.resolve Abi.membership = .ok Abi.membershipGraph ∧
      Call.join ∈ Abi.membershipGraph.actions ∧
      ∃ text, emit Abi.membershipGraph "Dao" ⟨defaultRuntimeModule, none⟩ = .ok text ∧
        ∃ i, interface Abi.membershipGraph "Dao" = .ok i ∧
          i.text ⟨defaultRuntimeModule, none⟩ = text ∧
          i.listing.WrittenIn (Header.text ⟨defaultRuntimeModule, none⟩) text ∧
          (∃ method ∈ i.actions, method.name = "join") ∧
          ∀ method ∈ i.actions, method.name = "join" →
            OrderedParameters Abi.membership Call.join method.parameters := by
  have hjoin : Call.join ∈ Abi.membershipGraph.actions := by decide
  exact ⟨Abi.resolve_membership, hjoin, _, emit_membership,
    orderedParameters_of_emit Abi.resolve_membership emit_membership hjoin⟩

/-- Votes are entries, and newer entries have a memo. -/
def ballot : Abi.Document where
  version := none
  aliases := []
  structs := [⟨"entry", "", [⟨"memo", "string$"⟩]⟩, ⟨"vote", "entry", [⟨"seat", "uint8"⟩]⟩]
  actions := [⟨"vote", "vote", ""⟩]
  tables := []
  variants := []

/-- The graph of the ballot. -/
def ballotGraph : Graph :=
  let memo : Field := ⟨"memo", ⟨.primitive .string, true, false⟩, "entry"⟩
  let seat : Field := ⟨"seat", ⟨.primitive .uint8, false, false⟩, "vote"⟩
  { version := none
    aliases := []
    structs := [⟨"entry", none, [memo], [memo]⟩, ⟨"vote", some "entry", [seat], [memo, seat]⟩]
    actions := [⟨"vote", "vote", [memo, seat], ""⟩]
    tables := []
    variants := []
    index := [("entry", .struct 0), ("vote", .struct 1)] }

/-- A vote takes two arguments at least, and its first parameter is printed with the mark, before
one without. -/
theorem ballot_illegal : Abi.resolve ballot = .ok ballotGraph ∧
    ∃ action ∈ ballotGraph.actions, action.requiredArity = 2 ∧
      ∃ i, interface ballotGraph "Dao" = .ok i ∧
        emit ballotGraph "Dao" ⟨defaultRuntimeModule, none⟩ =
          .ok (i.text ⟨defaultRuntimeModule, none⟩) ∧
        ∃ method ∈ i.actions, method.name = action.name ∧
          method.parameters.map Parameter.text = ["memo?: string", "seat: number"] ∧
          Text.HasLine (i.text ⟨defaultRuntimeModule, none⟩)
            "\tvote(memo?: string, seat: number, " ∧
          ¬ Legal method.parameters ∧ ¬ MarkedFrom action.requiredArity method.parameters := by
  have hresolve : Abi.resolve ballot = .ok ballotGraph :=
    Outcome.eq_ok_of_toOption (by decide +kernel)
  have hi : interface ballotGraph "Dao" = .ok (Interface.ofGraph ballotGraph "Dao") :=
    interface_eq_ok_iff.2 ⟨by decide, by rfl, rfl⟩
  have hillegal (m : Mapping) {action : Action} (ha : action ∈ ballotGraph.actions) :
      ¬ Legal (Parameter.ofFields m action.fields) := by
    rw [List.mem_singleton.1 ha, legal_iff_fields, Trailing]
    simp only [Field.IsExtension]
    decide
  have hmethod : ⟨"vote", [⟨"memo", true, "string"⟩, ⟨"seat", false, "number"⟩]⟩ ∈
      (Interface.ofGraph ballotGraph "Dao").listing.methods := by
    decide
  have hline : Text.HasLine
      ((Interface.ofGraph ballotGraph "Dao").text ⟨defaultRuntimeModule, none⟩)
      "\tvote(memo?: string, seat: number, " :=
    ((Interface.writtenIn_text _ _).methods _ hmethod).of_append
  refine ⟨hresolve, _, List.mem_singleton_self _, by decide, _, hi,
    emit_eq_ok_iff.2 ⟨_, hi, rfl⟩, _, List.mem_singleton_self _, rfl, by decide, hline,
    hillegal _ (List.mem_singleton_self _), fun hfrom => ?_⟩
  exact hillegal _ (List.mem_singleton_self _) (legal_iff_markedFrom.2 hfrom)

end Binding

end ContractBinding
