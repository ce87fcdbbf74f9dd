import ContractBinding.Proofs.Binding.Declarations

/-!
# The text of a pair in place

A struct that is written in place has an interface all the same, and so two texts: the one of its
interface, and the one that stands for it in other types. They name the same keys and types. What
may be left out or be null shows in the interface only, so they agree where nothing may.
-/

namespace ContractBinding.Binding

open Abi (Document Field Graph Struct)

variable {doc : Document} {g : Graph} {contract : String} {m : Mapping} {s : Struct}

/-- The properties of an interface as they would be written in place. -/
def RowInterface.inlineText (r : RowInterface) : String :=
  "\x7b " ++ "; ".intercalate (r.properties.map Property.text) ++ " \x7d"

/-- The text that stands for a struct says of its keys what its interface says: the marks, the
types, and where they may be null. -/
def AgreesInPlace (m : Mapping) (s : Struct) : Prop :=
  (m.map (.named s.name)).text = (Interface.rowOf m s).inlineText

namespace Property

variable {p : Property}

/-- A property that may not be left out is its key and its type; it is not null then, either. -/
theorem text_of_required (h : p.optional = false) (hnull : p.type.nullable = false) :
    p.text = p.key ++ ": " ++ p.type.type.text := by
  unfold text MemberType.text
  rw [h, hnull]
  show p.key ++ "" ++ ": " ++ (p.type.type.text ++ "") = _
  rw [String.append_empty, String.append_empty]

/-- A property that may be left out does not start as one that may not. -/
theorem text_append_ne (h : p.optional = true) (rest more : String) :
    p.text ++ more ≠ p.key ++ ": " ++ rest := by
  unfold text
  rw [h]
  show p.key ++ "?" ++ ": " ++ p.type.text ++ more ≠ _
  intro hsame
  have hchars := congrArg String.toList hsame
  simp [String.toList_append] at hchars

end Property

/-- The text of a pair is that of two properties exactly where neither may be left out. -/
theorem pair_text_eq_iff {key value : Property} (hkey : key.key = "key")
    (hvalue : value.key = "value") (hkeyNull : key.type.nullable = true → key.optional = true)
    (hvalueNull : value.type.nullable = true → value.optional = true) :
    (HostType.pair key.type.type value.type.type).text =
        "\x7b " ++ "; ".intercalate [key.text, value.text] ++ " \x7d" ↔
      key.optional = false ∧ value.optional = false := by
  have htext : (HostType.pair key.type.type value.type.type).text =
      "\x7b " ++ (key.key ++ ": " ++ (key.type.type.text ++ "; " ++
        (value.key ++ ": " ++ (value.type.type.text ++ " \x7d")))) := by
    rw [hkey, hvalue, HostType.text]
    simp only [String.append_assoc]
    rfl
  have hinline : "\x7b " ++ "; ".intercalate [key.text, value.text] ++ " \x7d" =
      "\x7b " ++ (key.text ++ ("; " ++ (value.text ++ " \x7d"))) := by
    rw [String.intercalate_cons_cons]
    simp [String.append_assoc]
  rw [htext, hinline, String.append_right_inj]
  constructor
  · intro hsame
    -- The texts are compared from the left: up to the first mark, then up to the second.
    have hfirst : key.optional = false :=
      Bool.eq_false_iff.2 fun hmark => Property.text_append_ne hmark _ _ hsame.symm
    have hfirstNull : key.type.nullable = false := by
      simpa [hfirst] using hkeyNull
    rw [Property.text_of_required hfirst hfirstNull] at hsame
    simp only [String.append_assoc, String.append_right_inj] at hsame
    refine ⟨hfirst, Bool.eq_false_iff.2 fun hmark => ?_⟩
    refine Property.text_append_ne hmark (value.type.type.text ++ " \x7d") " \x7d" ?_
    rw [String.append_assoc]
    exact hsame.symm
  · rintro ⟨hfirst, hsecond⟩
    have hfirstNull : key.type.nullable = false := by
      simpa [hfirst] using hkeyNull
    have hsecondNull : value.type.nullable = false := by
      simpa [hsecond] using hvalueNull
    rw [Property.text_of_required hfirst hfirstNull,
      Property.text_of_required hsecond hsecondNull]
    simp only [String.append_assoc]

/-- The properties of two fields. -/
theorem properties_of_ownFields {k v : Field} (hown : s.ownFields = [k, v]) :
    (Interface.rowOf m s).properties = [.ofField m k, .ofField m v] := by
  rw [Interface.rowOf, hown]
  rfl

/-- A key and a value stand under their names, which need no quotes. -/
theorem key_ofField {f : Field} {name : String} (hname : f.name = name)
    (h : Name.isIdentifier name = true) : (Property.ofField m f).key = name := by
  rw [Property.ofField, hname, Name.propertyKey, if_pos h]

/-- The texts of a struct of two fields agree exactly where neither has a mark. -/
theorem agreesInPlace_iff_of_map {k v : Field} (hown : s.ownFields = [k, v]) (hk : k.name = "key")
    (hv : v.name = "value")
    (hmap : m.map (.named s.name) = .pair (m.map k.type.expr) (m.map v.type.expr)) :
    AgreesInPlace m s ↔
      ∀ f ∈ s.ownFields, f.type.binaryExtension = false ∧ f.type.optional = false := by
  have hnull (f : Field) : (Property.ofField m f).type.nullable = true →
      (Property.ofField m f).optional = true := fun h => Bool.or_eq_true_iff.2 (.inr h)
  have htexts := pair_text_eq_iff (key_ofField (m := m) hk (by decide))
    (key_ofField (m := m) hv (by decide)) (hnull k) (hnull v)
  have hmarks (f : Field) : (Property.ofField m f).optional = false ↔
      f.type.binaryExtension = false ∧ f.type.optional = false := Bool.or_eq_false_iff
  rw [hmarks, hmarks] at htexts
  rw [AgreesInPlace, RowInterface.inlineText, properties_of_ownFields hown, hmap, hown,
    List.forall_mem_cons, List.forall_mem_singleton]
  exact htexts

/-- A struct that is written in place has a key and a value for own fields, and is written with
their types. -/
theorem exists_members (hg : Abi.ResolvedTypes doc g) (hs : s ∈ g.structs)
    (hp : (Mapping.ofGraph g contract).isPair s.name = true) :
    ∃ k v : Field, s.ownFields = [k, v] ∧ k.name = "key" ∧ v.name = "value" ∧
      (Mapping.ofGraph g contract).map (.named s.name) =
        .pair ((Mapping.ofGraph g contract).map k.type.expr)
          ((Mapping.ofGraph g contract).map v.type.expr) := by
  obtain ⟨⟨key, value⟩, hlookup⟩ := Option.isSome_iff_exists.1 hp
  obtain ⟨t, ht, hin, hname, k, v, hfields, rfl, rfl⟩ :=
    Mapping.mem_pairs_iff.1 (Mapping.mem_pairs_of_lookup hlookup)
  cases hg.eq_of_name_eq ht hs hname
  obtain ⟨hk, hv⟩ : k.name = "key" ∧ v.name = "value" := by
    simpa [hfields] using hin.form.fields
  refine ⟨k, v, ?_, hk, hv, ?_⟩
  · rw [← hg.fields_eq_of_root hs hin.form.base, hfields]
  · rw [Mapping.map_named (Mapping.flat_ofGraph g contract), hlookup]

/-- In the code of a resolved graph, the text in place of a struct has the keys and the types of its
interface, and it says the same of them exactly where no member of the struct may be missing or
null. -/
theorem agreesInPlace_iff (hg : Abi.resolve doc = .ok g) {header : Header} {text : String}
    (he : emit g contract header = .ok text) (hs : s ∈ g.structs)
    (hp : (Mapping.ofGraph g contract).isPair s.name = true) :
    ∃ i, interface g contract = .ok i ∧ i.text header = text ∧
      i.listing.WrittenIn header.text text ∧
      Interface.rowOf (Mapping.ofGraph g contract) s ∈ i.rows ∧
      (∃ key value : Property, key.key = "key" ∧ value.key = "value" ∧
        (Interface.rowOf (Mapping.ofGraph g contract) s).properties = [key, value] ∧
        (Mapping.ofGraph g contract).map (.named s.name) =
          .pair key.type.type value.type.type) ∧
      (AgreesInPlace (Mapping.ofGraph g contract) s ↔
        ∀ f ∈ s.ownFields, f.type.binaryExtension = false ∧ f.type.optional = false) := by
  obtain ⟨i, hi, rfl⟩ := emit_eq_ok_iff.1 he
  obtain ⟨-, -, rfl⟩ := interface_eq_ok_iff.1 hi
  obtain ⟨k, v, hown, hk, hv, hmap⟩ :=
    exists_members (Abi.resolve_eq_ok_iff.1 hg).toResolvedTypes hs hp
  refine ⟨_, hi, rfl, Interface.writtenIn_text _ header, List.mem_map_of_mem hs, ?_,
    agreesInPlace_iff_of_map hown hk hv hmap⟩
  exact ⟨_, _, key_ofField hk (by decide), key_ofField hv (by decide),
    properties_of_ownFields hown, hmap⟩

/-- A contract that keeps the points of members, and prizes that not everyone has. -/
def scores : Document where
  version := none
  aliases := []
  structs := [⟨"pair_name_points", "", [⟨"key", "name"⟩, ⟨"value", "uint32"⟩]⟩,
    ⟨"pair_name_prize", "", [⟨"key", "name"⟩, ⟨"value", "asset?"⟩]⟩,
    ⟨"board", "", [⟨"points", "pair_name_points[]"⟩, ⟨"prizes", "pair_name_prize[]"⟩]⟩]
  actions := []
  tables := [⟨"boards", "board", "i64", [], []⟩]
  variants := []

/-- The points of a member. -/
def pointsPair : Struct :=
  let key : Field := ⟨"key", ⟨.primitive .name, false, false⟩, "pair_name_points"⟩
  let value : Field := ⟨"value", ⟨.primitive .uint32, false, false⟩, "pair_name_points"⟩
  ⟨"pair_name_points", none, [key, value], [key, value]⟩

/-- The prize of a member, if there is one. -/
def prizePair : Struct :=
  let key : Field := ⟨"key", ⟨.primitive .name, false, false⟩, "pair_name_prize"⟩
  let value : Field := ⟨"value", ⟨.primitive .asset, false, true⟩, "pair_name_prize"⟩
  ⟨"pair_name_prize", none, [key, value], [key, value]⟩

/-- The graph of that contract. -/
def scoresGraph : Graph :=
  let points : Field :=
    ⟨"points", ⟨.array (.named "pair_name_points"), false, false⟩, "board"⟩
  let prizes : Field := ⟨"prizes", ⟨.array (.named "pair_name_prize"), false, false⟩, "board"⟩
  { version := none
    aliases := []
    structs := [pointsPair, prizePair,
      ⟨"board", none, [points, prizes], [points, prizes]⟩]
    actions := []
    tables := [⟨"boards", "board", "i64", [], []⟩]
    variants := []
    index := [("pair_name_points", .struct 0), ("pair_name_prize", .struct 1),
      ("board", .struct 2)] }

theorem resolve_scores : Abi.resolve scores = .ok scoresGraph :=
  Outcome.eq_ok_of_toOption (by decide +kernel)

theorem emit_scores : emit scoresGraph "Dao" ⟨defaultRuntimeModule, none⟩ =
    .ok ((Interface.ofGraph scoresGraph "Dao").text ⟨defaultRuntimeModule, none⟩) :=
  emit_of_linked (linked_of_resolve resolve_scores) (by decide)

theorem points_agreesInPlace :
    Abi.resolve scores = .ok scoresGraph ∧ pointsPair ∈ scoresGraph.structs ∧
      (Mapping.ofGraph scoresGraph "Dao").isPair pointsPair.name = true ∧
      (∃ text, emit scoresGraph "Dao" ⟨defaultRuntimeModule, none⟩ = .ok text) ∧
      AgreesInPlace (Mapping.ofGraph scoresGraph "Dao") pointsPair := by
  have hs : pointsPair ∈ scoresGraph.structs := by decide
  have hp : (Mapping.ofGraph scoresGraph "Dao").isPair pointsPair.name = true := by decide
  obtain ⟨i, -, -, -, -, -, hagrees⟩ := agreesInPlace_iff resolve_scores emit_scores hs hp
  exact ⟨resolve_scores, hs, hp, ⟨_, emit_scores⟩, hagrees.2 (by decide)⟩

/-- In place, nothing shows that there may be no prize. -/
theorem prize_not_agreesInPlace :
    Abi.resolve scores = .ok scoresGraph ∧ prizePair ∈ scoresGraph.structs ∧
      (Mapping.ofGraph scoresGraph "Dao").isPair prizePair.name = true ∧
      (∃ text, emit scoresGraph "Dao" ⟨defaultRuntimeModule, none⟩ = .ok text) ∧
      ((Mapping.ofGraph scoresGraph "Dao").map (.named prizePair.name)).text =
        "\x7b key: string|number; value: Asset \x7d" ∧
      (Interface.rowOf (Mapping.ofGraph scoresGraph "Dao") prizePair).inlineText =
        "\x7b key: string|number; value?: Asset | null \x7d" ∧
      ¬ AgreesInPlace (Mapping.ofGraph scoresGraph "Dao") prizePair := by
  have htext : ((Mapping.ofGraph scoresGraph "Dao").map (.named prizePair.name)).text =
      "\x7b key: string|number; value: Asset \x7d" := by decide
  have hinline : (Interface.rowOf (Mapping.ofGraph scoresGraph "Dao") prizePair).inlineText =
      "\x7b key: string|number; value?: Asset | null \x7d" := by decide
  refine ⟨resolve_scores, by decide, by decide, ⟨_, emit_scores⟩, htext, hinline, ?_⟩
  rw [AgreesInPlace, htext, hinline]
  decide

end ContractBinding.Binding
