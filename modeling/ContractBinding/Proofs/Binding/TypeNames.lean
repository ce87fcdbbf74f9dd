import ContractBinding.Proofs.Binding.Mentions
import ContractBinding.Proofs.Name.Lexeme
import ContractBinding.Proofs.Name.Words

/-!
# The names of types in code

Where a type is expected, generated code has names of the host language and exported names. The
exported ones are those of the declarations that the graph refers to: no other name is written, and
all of them are. They are looked for in the text, since of types of one text only the first is
written.
-/

namespace ContractBinding.Binding

open Abi (Action Alias Branch Field Graph Struct Variant)
open Name (namesIn namesIn_split namesIn_of_isIdentifier)

variable {g : Graph} {contract : String} {m : Mapping} {expr : TypeExpr} {word declared : String}

/-- The names that stand in types without being exported. -/
def hostNames : List String :=
  ["Array", "key", "value", "string", "number", "boolean", "Date", "Asset", "ExtendedAsset",
    "ExtendedSymbol", "null"]

/-! ### Names in the text of a type -/

/-- The type of a built-in type has no other names. -/
theorem mem_hostNames_of_hostType {p : Primitive} : ∀ word ∈ namesIn p.hostType,
    word ∈ hostNames := by
  unfold Primitive.hostType
  cases p.hostClass with
  | reinterpreted kind => cases kind <;> decide
  | _ => decide

/-- The names in an array. -/
theorem namesIn_array (element : String) :
    namesIn ("Array<" ++ element ++ ">") = "Array" :: namesIn element :=
  calc namesIn ("Array<" ++ element ++ ">")
    _ = namesIn "Array" ++ namesIn (element ++ ">") :=
      namesIn_split "Array" '<' (element ++ ">") (by decide) (by simp)
    _ = namesIn "Array" ++ (namesIn element ++ namesIn "") :=
      congrArg _ (namesIn_split element '>' "" (by decide) (by simp))
    _ = "Array" :: namesIn element := by
      have harray : namesIn "Array" = ["Array"] := by decide
      have hnone : namesIn "" = [] := by decide
      rw [harray, hnone, List.append_nil, List.singleton_append]

/-- The names in a pair. -/
theorem namesIn_pair (key value : String) :
    namesIn ("\x7b key: " ++ key ++ "; value: " ++ value ++ " \x7d") =
      "key" :: namesIn key ++ "value" :: namesIn value := by
  have hsecond : namesIn (" value: " ++ value ++ " \x7d") = "value" :: namesIn value :=
    calc namesIn (" value: " ++ value ++ " \x7d")
      _ = namesIn " value:" ++ namesIn (value ++ " \x7d") :=
        namesIn_split " value:" ' ' _ (by decide) (by simp)
      _ = namesIn " value:" ++ (namesIn value ++ namesIn "\x7d") :=
        congrArg _ (namesIn_split value ' ' "\x7d" (by decide) (by simp))
      _ = "value" :: namesIn value := by
        have hvalue : namesIn " value:" = ["value"] := by decide
        have hnone : namesIn "\x7d" = [] := by decide
        rw [hvalue, hnone, List.append_nil, List.singleton_append]
  calc namesIn ("\x7b key: " ++ key ++ "; value: " ++ value ++ " \x7d")
    _ = namesIn "\x7b key:" ++ namesIn (key ++ ("; value: " ++ value ++ " \x7d")) :=
      namesIn_split "\x7b key:" ' ' _ (by decide) (by simp)
    _ = namesIn "\x7b key:" ++ (namesIn key ++ namesIn (" value: " ++ value ++ " \x7d")) :=
      congrArg _ (namesIn_split key ';' _ (by decide) (by simp))
    _ = "key" :: namesIn key ++ "value" :: namesIn value := by
      have hkey : namesIn "\x7b key:" = ["key"] := by decide
      rw [hkey, hsecond, List.singleton_append, List.cons_append]

/-- The names in a type that is joined with null. -/
theorem namesIn_null (type : String) :
    namesIn (type ++ " | null") = namesIn type ++ ["null"] := by
  have hnull : namesIn "| null" = ["null"] := by decide
  rw [namesIn_split type ' ' "| null" (by decide) (by simp), hnull]

namespace Mapping

/-- The names in the text of a type are of the host language or stand for its declared name. -/
theorem of_mem_namesIn_textWith {texts : String → String}
    (h : word ∈ namesIn (textWith texts expr)) :
    word ∈ hostNames ∨ ∃ name ∈ expr.namedRef?, word ∈ namesIn (texts name) := by
  induction expr with
  | primitive p => exact .inl (mem_hostNames_of_hostType word h)
  | array element ih =>
    rw [textWith, namesIn_array, List.mem_cons] at h
    rcases h with rfl | h
    · exact .inl (by decide)
    · exact ih h
  | named name => exact .inr ⟨name, rfl, h⟩

/-- The names in the text of its declared name are in the text of a type. -/
theorem mem_namesIn_textWith {texts : String → String} {name : String}
    (hn : name ∈ expr.namedRef?) (h : word ∈ namesIn (texts name)) :
    word ∈ namesIn (textWith texts expr) := by
  induction expr with
  | primitive p => simp [TypeExpr.namedRef?] at hn
  | array element ih =>
    rw [textWith, namesIn_array]
    exact List.mem_cons_of_mem _ (ih hn)
  | named other =>
    cases hn
    exact h

/-- The only name in an exported name is that name. -/
theorem namesIn_exportedName (hc : Name.isIdentifier m.contract = true) (declared : String) :
    namesIn (m.exportedName declared) = [m.exportedName declared] :=
  namesIn_of_isIdentifier (Name.isIdentifier_typeName hc declared)

/-- The names in the text of a member of a pair, which is written by its name. -/
theorem of_mem_namesIn_member (hc : Name.isIdentifier m.contract = true)
    (h : word ∈ namesIn (textWith m.exportedName expr)) :
    word ∈ hostNames ∨ ∃ declared ∈ expr.namedRef?.toList, m.exportedName declared = word := by
  refine (of_mem_namesIn_textWith h).imp_right ?_
  rintro ⟨declared, hdeclared, hword⟩
  rw [namesIn_exportedName hc, List.mem_singleton] at hword
  exact ⟨declared, Option.mem_toList.2 hdeclared, hword.symm⟩

/-- The names in the type of an expression are of the host language, or exported names of what the
expression refers to. -/
theorem of_mem_namesIn_typeText (hc : Name.isIdentifier m.contract = true)
    (h : word ∈ namesIn (m.typeText expr)) :
    word ∈ hostNames ∨ ∃ declared ∈ m.namesOf expr, m.exportedName declared = word := by
  rcases of_mem_namesIn_textWith h with hhost | ⟨name, hn, hword⟩
  · exact .inl hhost
  rw [namesOf, Option.mem_def.1 hn]
  unfold nameText at hword
  dsimp only
  cases hlookup : m.pairs.lookup name with
  | none =>
    rw [hlookup] at hword
    dsimp only at hword
    rw [namesIn_exportedName hc, List.mem_singleton] at hword
    exact .inr ⟨name, List.mem_singleton_self name, hword.symm⟩
  | some members =>
    obtain ⟨key, value⟩ := members
    rw [hlookup] at hword
    dsimp only at hword
    rw [namesIn_pair, List.mem_append, List.mem_cons, List.mem_cons] at hword
    rcases hword with (rfl | hkey) | (rfl | hvalue)
    · exact .inl (by decide)
    · refine (of_mem_namesIn_member hc hkey).imp_right ?_
      rintro ⟨declared, hdeclared, hword⟩
      exact ⟨declared, List.mem_append_left _ hdeclared, hword⟩
    · exact .inl (by decide)
    · refine (of_mem_namesIn_member hc hvalue).imp_right ?_
      rintro ⟨declared, hdeclared, hword⟩
      exact ⟨declared, List.mem_append_right _ hdeclared, hword⟩

/-- What an expression refers to stands in the text of its type, under its exported name. -/
theorem mem_namesIn_typeText (hc : Name.isIdentifier m.contract = true)
    (h : declared ∈ m.namesOf expr) : m.exportedName declared ∈ namesIn (m.typeText expr) := by
  unfold namesOf at h
  cases hn : expr.namedRef? with
  | none => simp [hn] at h
  | some name =>
    refine mem_namesIn_textWith hn ?_
    rw [hn] at h
    unfold nameText
    dsimp only at h
    cases hlookup : m.pairs.lookup name with
    | none =>
      rw [hlookup, List.mem_singleton] at h
      rw [h, namesIn_exportedName hc]
      exact List.mem_singleton_self _
    | some members =>
      obtain ⟨key, value⟩ := members
      rw [hlookup, List.mem_append, Option.mem_toList, Option.mem_toList] at h
      have hself : m.exportedName declared ∈ namesIn (m.exportedName declared) := by
        rw [namesIn_exportedName hc]
        exact List.mem_singleton_self _
      dsimp only
      rw [namesIn_pair, List.mem_append]
      exact h.imp (fun hkey => List.mem_cons_of_mem _ (mem_namesIn_textWith hkey hself))
        fun hvalue => List.mem_cons_of_mem _ (mem_namesIn_textWith hvalue hself)

/-- The names in the type of a field. -/
theorem of_mem_namesIn_fieldText {f : Field} (h : word ∈ namesIn (m.fieldText f)) :
    word ∈ hostNames ∨ word ∈ namesIn (m.typeText f.type.expr) := by
  unfold fieldText at h
  split at h
  · rw [namesIn_null, List.mem_append, List.mem_singleton] at h
    rcases h with h | rfl
    · exact .inr h
    · exact .inl (by decide)
  · exact .inr h

/-- The type of a field has the names in the type of its expression. -/
theorem mem_namesIn_fieldText {f : Field} (h : word ∈ namesIn (m.typeText f.type.expr)) :
    word ∈ namesIn (m.fieldText f) := by
  unfold fieldText
  split
  · rw [namesIn_null]
    exact List.mem_append_left _ h
  · exact h

end Mapping

/-! ### Names in a listing -/

namespace Listing

/-- The types in code. -/
def types (l : Listing) : List String :=
  l.blocks.flatMap (fun b => b.entries.map Entry.type) ++ l.definitions.map Definition.type ++
    l.choices.flatMap Choice.types ++ l.methods.flatMap (fun s => s.entries.map Entry.type) ++
    l.bundles.flatMap (fun s => s.entries.map Entry.type)

/-- What interfaces extend, and the rows of tables. -/
def references (l : Listing) : List String :=
  l.blocks.flatMap (fun b => b.parent.toList) ++ l.accessors.map Accessor.row

/-- The names that stand for types. -/
def typeNames (l : Listing) : List String := l.references ++ l.types.flatMap namesIn

/-- Parameters have the types of their fields. -/
theorem map_type_parameters (m : Mapping) (fields : List Field) :
    (Entry.parameters m fields).map Entry.type = fields.map m.fieldText :=
  (Outcome.map_eq_map (forall₂_isParameterOf m fields) fun _ _ h => h.type.symm).symm

/-- A key has the type of its field. -/
theorem type_ofField (m : Mapping) (f : Field) : (Entry.ofField m f).type = m.fieldText f := rfl

/-- What interfaces extend and the rows of tables are exported names of what the graph refers to. -/
theorem exists_rendered_of_mem_references (h : word ∈ (ofGraph g contract).references) :
    ∃ declared, Rendered g (Mapping.ofGraph g contract) declared ∧
      (Mapping.ofGraph g contract).exportedName declared = word := by
  simp only [references, ofGraph, List.mem_append, List.mem_flatMap, List.mem_map] at h
  rcases h with ⟨_, ⟨s, hs, rfl⟩, hparent⟩ | ⟨_, ⟨t, ht, rfl⟩, rfl⟩
  · obtain ⟨base, hb, rfl⟩ := Option.map_eq_some_iff.1 (Option.mem_toList.1 hparent)
    exact ⟨base, .base hs hb, rfl⟩
  · exact ⟨t.rowStruct, .row ht, rfl⟩

/-- The types in the code of a graph are those of the fields and expressions that it shows. -/
theorem mem_types_ofGraph_iff {type : String} : type ∈ (ofGraph g contract).types ↔
    (∃ s ∈ g.structs, ∃ f ∈ s.ownFields, (Mapping.ofGraph g contract).fieldText f = type) ∨
    (∃ a ∈ g.aliases, (Mapping.ofGraph g contract).typeText a.target = type) ∨
    (∃ v ∈ g.variants, ∃ b ∈ v.branches, (Mapping.ofGraph g contract).typeText b.type = type) ∨
    ∃ a ∈ g.actions, ∃ f ∈ a.fields, (Mapping.ofGraph g contract).fieldText f = type := by
  unfold types ofGraph
  simp only [List.mem_append, List.flatMap_map, List.map_map, List.mem_flatMap, List.mem_map,
    Block.ofStruct, map_type_parameters, type_ofField, List.mem_eraseDups, Function.comp_apply,
    or_assoc, or_self]

/-- A name in code that stands for a type is one of the host language, or the exported name of what
the graph refers to. -/
theorem exists_rendered_of_mem_typeNames (hc : Name.isIdentifier contract = true)
    (h : word ∈ (ofGraph g contract).typeNames) :
    word ∈ hostNames ∨ ∃ declared, Rendered g (Mapping.ofGraph g contract) declared ∧
      (Mapping.ofGraph g contract).exportedName declared = word := by
  have hexpr {expr : TypeExpr} (hshown : ∀ declared ∈ (Mapping.ofGraph g contract).namesOf expr,
      Rendered g (Mapping.ofGraph g contract) declared)
      (hword : word ∈ namesIn ((Mapping.ofGraph g contract).typeText expr)) :
      word ∈ hostNames ∨ ∃ declared, Rendered g (Mapping.ofGraph g contract) declared ∧
        (Mapping.ofGraph g contract).exportedName declared = word := by
    refine (Mapping.of_mem_namesIn_typeText hc hword).imp_right ?_
    rintro ⟨declared, hd, hname⟩
    exact ⟨declared, hshown declared hd, hname⟩
  rcases List.mem_append.1 h with hreference | htype
  · exact .inr (exists_rendered_of_mem_references hreference)
  obtain ⟨type, htype, hword⟩ := List.mem_flatMap.1 htype
  rcases mem_types_ofGraph_iff.1 htype with ⟨s, hs, f, hf, rfl⟩ | ⟨a, ha, rfl⟩ |
    ⟨v, hv, b, hb, rfl⟩ | ⟨a, ha, f, hf, rfl⟩
  · rcases Mapping.of_mem_namesIn_fieldText hword with hhost | hword
    · exact .inl hhost
    · exact hexpr (fun _ => .ownField hs hf) hword
  · exact hexpr (fun _ => .target ha) hword
  · exact hexpr (fun _ => .branch hv hb) hword
  · rcases Mapping.of_mem_namesIn_fieldText hword with hhost | hword
    · exact .inl hhost
    · exact hexpr (fun _ => .argument ha hf) hword

/-- What the graph refers to stands in its code under its exported name. -/
theorem mem_typeNames_of_rendered (hc : Name.isIdentifier contract = true)
    (h : Rendered g (Mapping.ofGraph g contract) declared) :
    (Mapping.ofGraph g contract).exportedName declared ∈ (ofGraph g contract).typeNames := by
  have htypes {type : String} (htype : type ∈ (ofGraph g contract).types)
      (hword : (Mapping.ofGraph g contract).exportedName declared ∈ namesIn type) :
      (Mapping.ofGraph g contract).exportedName declared ∈ (ofGraph g contract).typeNames :=
    List.mem_append_right _ (List.mem_flatMap.2 ⟨type, htype, hword⟩)
  have hword {expr : TypeExpr} (hn : declared ∈ (Mapping.ofGraph g contract).namesOf expr) :
      (Mapping.ofGraph g contract).exportedName declared ∈
        namesIn ((Mapping.ofGraph g contract).typeText expr) :=
    Mapping.mem_namesIn_typeText hc hn
  cases h with
  | base hs hb =>
    refine List.mem_append_left _ (List.mem_append_left _ ?_)
    refine List.mem_flatMap.2 ⟨_, List.mem_map_of_mem hs, ?_⟩
    rw [Block.ofStruct, hb]
    exact List.mem_singleton_self _
  | ownField hs hf hn =>
    exact htypes (mem_types_ofGraph_iff.2 (.inl ⟨_, hs, _, hf, rfl⟩))
      (Mapping.mem_namesIn_fieldText (hword hn))
  | target ha hn => exact htypes (mem_types_ofGraph_iff.2 (.inr (.inl ⟨_, ha, rfl⟩))) (hword hn)
  | branch hv hb hn =>
    exact htypes (mem_types_ofGraph_iff.2 (.inr (.inr (.inl ⟨_, hv, _, hb, rfl⟩)))) (hword hn)
  | argument ha hf hn =>
    exact htypes (mem_types_ofGraph_iff.2 (.inr (.inr (.inr ⟨_, ha, _, hf, rfl⟩))))
      (Mapping.mem_namesIn_fieldText (hword hn))
  | row ht =>
    exact List.mem_append_left _ (List.mem_append_right _
      (List.mem_map.2 ⟨_, List.mem_map_of_mem ht, rfl⟩))

end Listing

/-- The code of a graph is written in the text. What stands for types in it are the exported names
of what the graph refers to, all of them, and otherwise names of the host language. -/
structure ShownIn (g : Graph) (contract header text : String) : Prop where
  written : (Listing.ofGraph g contract).WrittenIn header text
  shown : ∀ declared, Rendered g (Mapping.ofGraph g contract) declared →
    (Mapping.ofGraph g contract).exportedName declared ∈ (Listing.ofGraph g contract).typeNames
  nothing_else : ∀ word ∈ (Listing.ofGraph g contract).typeNames, word ∈ hostNames ∨
    ∃ declared, Rendered g (Mapping.ofGraph g contract) declared ∧
      (Mapping.ofGraph g contract).exportedName declared = word

/-- The code that is generated for a graph shows what the graph refers to. -/
theorem shownIn_of_emit {header : Header} {text : String}
    (he : emit g contract header = .ok text) : ShownIn g contract header.text text := by
  obtain ⟨i, hi, -⟩ := emit_eq_ok_iff.1 he
  obtain ⟨hc, -, -⟩ := interface_eq_ok_iff.1 hi
  exact ⟨writtenIn_of_emit he, fun _ => Listing.mem_typeNames_of_rendered hc,
    fun _ => Listing.exists_rendered_of_mem_typeNames hc⟩

end ContractBinding.Binding
