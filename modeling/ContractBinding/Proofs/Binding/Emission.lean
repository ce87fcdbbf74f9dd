import ContractBinding.Binding.Generate
import ContractBinding.Proofs.Abi.Faithful
import ContractBinding.Proofs.Binding.Listing
import ContractBinding.Proofs.Binding.Pairs

/-!
# What is written for a graph

Code is generated for an identifier and a graph without dangling references, and it is written from
the declarations of the graph alone: a key is the name of its field, quoted where it has to be, with
the mark of what may be left out and the text of the type; so is a parameter, under a name of its
own. The text of the code is that of the listing of the graph.
-/

namespace ContractBinding.Binding

open Abi (Action Alias Field Graph Struct Variant)
open Listing (Accessor Block Definition Entry Signature Choice)

variable {g : Graph} {contract : String} {i : Interface} {m : Mapping} {fields : List Field}

/-! ### What is generated -/

/-- An interface is that of the graph, under an identifier. -/
theorem interface_eq_ok_iff : interface g contract = .ok i ↔
    Name.isIdentifier contract = true ∧ checkReferences g = .ok () ∧
      i = Interface.ofGraph g contract := by
  unfold interface
  cases hc : Name.isIdentifier contract with
  | false => simp [throw, throwThe, MonadExceptOf.throw, bind, Except.bind]
  | true =>
    simp only [Bool.not_true, Bool.false_eq_true, if_false]
    cases hr : checkReferences g with
    | error problem => simp [bind, Except.bind]
    | ok _ => simp [bind, Except.bind, pure, Except.pure, eq_comm]

/-- The code of a graph is the text of its interface. -/
theorem emit_eq_ok_iff {header : Header} {text : String} : emit g contract header = .ok text ↔
    ∃ i, interface g contract = .ok i ∧ i.text header = text := by
  simp only [emit, Outcome.bind_eq_ok_iff, Outcome.pure_eq_ok_iff]

theorem emit_membership : emit Abi.membershipGraph "Dao" ⟨defaultRuntimeModule, none⟩ =
    .ok ((Interface.ofGraph Abi.membershipGraph "Dao").text ⟨defaultRuntimeModule, none⟩) :=
  emit_eq_ok_iff.2 ⟨_, interface_eq_ok_iff.2 ⟨by decide, by rfl, rfl⟩, rfl⟩

section Parameters

variable {α : Type} {make : Field → String → α}

/-- Fields and what is made of them for parameters are partners, whatever names are taken before. -/
theorem forall₂_parameters {R : Field → α → Prop} (h : ∀ f name, R f (make f name))
    (fields : List Field) : List.Forall₂ R fields
      (List.zipWith make fields (Name.parameterNames (fields.map Field.name))) := by
  unfold Name.parameterNames
  generalize [Name.optionsParameter] = taken
  induction fields generalizing taken with
  | nil => exact .nil
  | cons f rest ih => exact .cons (h f _) (ih _)

/-- What is made of fields for parameters has the names of parameters. -/
theorem map_parameters {nameOf : α → String} (h : ∀ f name, nameOf (make f name) = name)
    (fields : List Field) :
    (List.zipWith make fields (Name.parameterNames (fields.map Field.name))).map nameOf =
      Name.parameterNames (fields.map Field.name) := by
  unfold Name.parameterNames
  generalize [Name.optionsParameter] = taken
  induction fields generalizing taken with
  | nil => rfl
  | cons f rest ih => exact congrArg₂ List.cons (h f _) (ih _)

end Parameters

/-- Every field has its parameter in the interface, which may be left out for an extension. -/
theorem forall₂_ofFields (m : Mapping) (fields : List Field) :
    List.Forall₂ (fun f p => p.optional = f.type.binaryExtension ∧ p.type = .ofField m f) fields
      (Parameter.ofFields m fields) :=
  forall₂_parameters (fun _ _ => ⟨rfl, rfl⟩) fields

/-! ### The texts of types -/

namespace Mapping

/-- The text of a type whose declared name is written so. -/
def textWith (declared : String → String) : TypeExpr → String
  | .primitive p => p.hostType
  | .array element => "Array<" ++ textWith declared element ++ ">"
  | .named name => declared name

/-- The text of a declared name: a pair with the types of its members, or the exported name. -/
def nameText (m : Mapping) (name : String) : String :=
  match m.pairs.lookup name with
  | some (key, value) => "\x7b key: " ++ textWith m.exportedName key ++ "; value: " ++
      textWith m.exportedName value ++ " \x7d"
  | none => m.exportedName name

/-- The text of a type. -/
def typeText (m : Mapping) (expr : TypeExpr) : String := textWith m.nameText expr

/-- The text of the type of a field. -/
def fieldText (m : Mapping) (f : Field) : String :=
  if f.type.optional then m.typeText f.type.expr ++ " | null" else m.typeText f.type.expr

/-- The type of an expression is written by the texts of its declared names. -/
theorem text_mapWith {declared : String → HostType} {texts : String → String} {expr : TypeExpr}
    (h : ∀ name, expr.namedRef? = some name → (declared name).text = texts name) :
    (mapWith declared expr).text = textWith texts expr := by
  induction expr with
  | primitive p => rfl
  | array element ih =>
    show "Array<" ++ (mapWith declared element).text ++ ">" = _
    rw [ih h, textWith]
  | named name => exact h name rfl

/-- A declared name is written with the types of its members where it is a pair. -/
theorem text_map_named (hm : m.Flat) (name : String) :
    (m.map (.named name)).text = m.nameText name := by
  rw [map_named hm, nameText]
  cases hlookup : m.pairs.lookup name with
  | none => rfl
  | some members =>
    obtain ⟨key, value⟩ := members
    -- The members of a pair are no pairs, so they are written by their names.
    have hmember {member : TypeExpr} (h : member = key ∨ member = value) :
        (m.map member).text = textWith m.exportedName member := by
      refine text_mapWith fun inner hinner => ?_
      rw [mapNamed_of_lookup (hm.lookup_eq_none hlookup h hinner)]
      rfl
    dsimp only
    rw [HostType.text, hmember (.inl rfl), hmember (.inr rfl)]

/-- The text of a type is written without counting how deep pairs may be opened. -/
theorem text_map (hm : m.Flat) (expr : TypeExpr) : (m.map expr).text = m.typeText expr :=
  text_mapWith fun name _ => text_map_named hm name

end Mapping

/-- The type of a field ends in null where it may be null. -/
theorem MemberType.text_ofField (hm : m.Flat) (f : Field) :
    (MemberType.ofField m f).text = m.fieldText f := by
  unfold MemberType.text Mapping.fieldText
  rw [MemberType.ofField, Mapping.text_map hm]
  cases f.type.optional with
  | true => rfl
  | false => exact String.append_empty

/-! ### The listing of a graph -/

namespace Listing

/-- The key of a field. -/
def Entry.ofField (m : Mapping) (f : Field) : Entry where
  name := Name.propertyKey f.name
  optional := f.type.binaryExtension || f.type.optional
  type := m.fieldText f

/-- The parameters of fields. -/
def Entry.parameters (m : Mapping) (fields : List Field) : List Entry :=
  List.zipWith (fun f name => ⟨name, f.type.binaryExtension, m.fieldText f⟩) fields
    (Name.parameterNames (fields.map Field.name))

/-- A key is written for a field: under its name, quoted where it has to be, with the mark of what
may be left out, and with the text of its type. -/
structure Entry.IsKeyOf (m : Mapping) (f : Field) (e : Entry) : Prop where
  name : e.name = Name.propertyKey f.name
  optional : e.optional = true ↔ f.type.binaryExtension = true ∨ f.type.optional = true
  type : e.type = m.fieldText f

/-- A parameter is written for a field, with the mark of an extension and the text of its type. -/
structure Entry.IsParameterOf (m : Mapping) (f : Field) (e : Entry) : Prop where
  optional : e.optional = f.type.binaryExtension
  type : e.type = m.fieldText f

/-- Every field has its key. -/
theorem forall₂_isKeyOf (m : Mapping) (fields : List Field) :
    List.Forall₂ (Entry.IsKeyOf m) fields (fields.map (Entry.ofField m)) :=
  List.forall₂_map_right_iff.2 (List.forall₂_same.2 fun _ _ => ⟨rfl, Bool.or_eq_true_iff, rfl⟩)

/-- Every field has its parameter. -/
theorem forall₂_isParameterOf (m : Mapping) (fields : List Field) :
    List.Forall₂ (Entry.IsParameterOf m) fields (Entry.parameters m fields) :=
  forall₂_parameters (fun _ _ => ⟨rfl, rfl⟩) fields

/-- The interface of a struct: what it extends, and the keys of its own fields. -/
def Block.ofStruct (m : Mapping) (s : Struct) : Block where
  name := m.exportedName s.name
  parent := s.base.map m.exportedName
  entries := s.ownFields.map (Entry.ofField m)

/-- What is written for a graph. -/
def ofGraph (g : Graph) (contract : String) : Listing :=
  let m := Mapping.ofGraph g contract
  { contract
    blocks := g.structs.map (Block.ofStruct m)
    definitions := g.aliases.map fun a => ⟨m.exportedName a.name, m.typeText a.target⟩
    choices := g.variants.map fun v =>
      ⟨m.exportedName v.name, (v.branches.map fun b => m.typeText b.type).eraseDups⟩
    methods := g.actions.map fun a => ⟨a.name, Entry.parameters m a.fields⟩
    bundles := g.actions.map fun a =>
      ⟨Name.objectMethod a.name, a.fields.map (Entry.ofField m)⟩
    accessors := g.tables.map fun t => ⟨Name.tableAccessor t.name, m.exportedName t.rowStruct⟩ }

section Members

variable (g : Graph) (contract : String)

/-- Actions have the methods of their names. -/
theorem map_name_methods :
    (ofGraph g contract).methods.map Signature.name = g.actions.map Action.name := by
  simp [ofGraph, Function.comp_def]

/-- Actions have the object methods of their names. -/
theorem map_name_bundles : (ofGraph g contract).bundles.map Signature.name =
    g.actions.map fun a => Name.objectMethod a.name := by
  simp [ofGraph, Function.comp_def]

/-- Tables have the accessors of their names. -/
theorem map_name_accessors : (ofGraph g contract).accessors.map Accessor.name =
    g.tables.map fun t => Name.tableAccessor t.name := by
  simp [ofGraph, Function.comp_def]

/-- The members are the methods of actions, the object methods and the accessors. -/
theorem members_ofGraph : (ofGraph g contract).members = g.actions.map Action.name ++
    (g.actions.map fun a => Name.objectMethod a.name) ++
      g.tables.map fun t => Name.tableAccessor t.name := by
  rw [members, map_name_methods, map_name_bundles, map_name_accessors]

end Members

end Listing

/-! ### What is written for an interface -/

def Property.entry (p : Property) : Entry := ⟨p.key, p.optional, p.type.text⟩

def Parameter.entry (p : Parameter) : Entry := ⟨p.name, p.optional, p.type.text⟩

def RowInterface.block (r : RowInterface) : Block :=
  ⟨r.name, r.parent, r.properties.map Property.entry⟩

def AliasExport.definition (a : AliasExport) : Definition := ⟨a.name, a.target.text⟩

def VariantExport.choice (v : VariantExport) : Choice := ⟨v.name, v.members.map HostType.text⟩

def ActionMethod.signature (a : ActionMethod) : Signature :=
  ⟨a.name, a.parameters.map Parameter.entry⟩

def ObjectMethod.signature (o : ObjectMethod) : Signature :=
  ⟨o.name, o.properties.map Property.entry⟩

def TableAccessor.accessor (t : TableAccessor) : Accessor := ⟨t.name, t.row⟩

/-- What is written for an interface. -/
def Interface.listing (i : Interface) : Listing where
  contract := i.contract
  blocks := i.rows.map RowInterface.block
  definitions := i.aliases.map AliasExport.definition
  choices := i.variants.map VariantExport.choice
  methods := i.actions.map ActionMethod.signature
  bundles := i.objects.map ObjectMethod.signature
  accessors := i.tables.map TableAccessor.accessor

/-- The interface of a struct is written key by key. -/
theorem RowInterface.text_eq (r : RowInterface) : r.text = r.block.text := by
  have hlines : r.properties.map (fun p => "\t" ++ p.text ++ ";\n") =
      (r.properties.map Property.entry).map Entry.line := by
    rw [List.map_map]
    rfl
  unfold RowInterface.text Block.text Block.heading Block.heritage RowInterface.block
  rw [hlines]
  cases r.parent with
  | none => simp [String.append_assoc]
  | some parent => simp [String.append_assoc]

/-- Every parameter of a method is followed by a comma, since the options come after it. -/
theorem ActionMethod.text_eq (a : ActionMethod) : a.text = a.signature.methodText := by
  have hjoin : String.join ((a.parameters.map Parameter.text).map (· ++ ", ")) =
      String.join ((a.parameters.map Parameter.entry).map fun e => e.text ++ ", ") := by
    rw [List.map_map, List.map_map]
    rfl
  unfold ActionMethod.text Signature.methodText ActionMethod.signature
  dsimp only
  rw [Text.intercalate_concat, hjoin]
  simp only [String.append_assoc]
  rfl

/-- An object method is written key by key. -/
theorem ObjectMethod.text_eq (o : ObjectMethod) : o.text = o.signature.bundleText := by
  have htexts : o.properties.map Property.text =
      (o.properties.map Property.entry).map Entry.text := by
    rw [List.map_map]
    rfl
  unfold ObjectMethod.text Signature.bundleText Signature.bundle ObjectMethod.signature
  rw [htexts]
  simp only [List.isEmpty_iff, List.map_eq_nil_iff, String.append_assoc]
  rfl

/-- The text of an interface is that of what is written for it. -/
theorem Interface.text_eq (i : Interface) (header : Header) :
    i.text header = i.listing.text header.text := by
  have hrows : i.rows.map RowInterface.text = i.listing.blocks.map Block.text := by
    rw [listing, List.map_map]
    exact List.map_congr_left fun r _ => r.text_eq
  have hactions : i.actions.map ActionMethod.text =
      i.listing.methods.map Signature.methodText := by
    rw [listing, List.map_map]
    exact List.map_congr_left fun a _ => a.text_eq
  have hobjects : i.objects.map ObjectMethod.text =
      i.listing.bundles.map Signature.bundleText := by
    rw [listing, List.map_map]
    exact List.map_congr_left fun o _ => o.text_eq
  have haliases : i.aliases.map AliasExport.text = i.listing.definitions.map Definition.text := by
    rw [listing, List.map_map]
    rfl
  have hvariants : i.variants.map VariantExport.text = i.listing.choices.map Choice.text := by
    rw [listing, List.map_map]
    rfl
  have htables : i.tables.map TableAccessor.text = i.listing.accessors.map Accessor.text := by
    rw [listing, List.map_map]
    rfl
  unfold Interface.text Listing.text Listing.contractSection Listing.titled
  rw [hrows, hactions, hobjects, haliases, hvariants, htables]
  simp only [String.append_assoc]
  rfl

/-- Every part of an interface stands in its text. -/
theorem Interface.writtenIn_text (i : Interface) (header : Header) :
    i.listing.WrittenIn header.text (i.text header) := by
  rw [text_eq]
  exact i.listing.writtenIn_text header.text

/-! ### The text of a graph -/

/-- The parameters of fields are written with the marks of extensions. -/
theorem map_entry_ofFields (hm : m.Flat) (fields : List Field) :
    (Parameter.ofFields m fields).map Parameter.entry = Entry.parameters m fields := by
  unfold Parameter.ofFields Entry.parameters
  rw [List.map_zipWith]
  simp only [Parameter.entry, MemberType.text_ofField hm]

/-- The keys of fields are written with the marks of extensions and of what may be null. -/
theorem map_entry_ofField (hm : m.Flat) (fields : List Field) :
    (fields.map (Property.ofField m)).map Property.entry = fields.map (Entry.ofField m) := by
  rw [List.map_map]
  refine List.map_congr_left fun f _ => ?_
  show (⟨_, _, (MemberType.ofField m f).text⟩ : Entry) = _
  rw [MemberType.text_ofField hm]
  rfl

/-- Types of one text are written once, where the first of them stands. -/
theorem map_text_distinctTexts (types : List HostType) :
    (distinctTexts types).map HostType.text = (types.map HostType.text).eraseDups := by
  -- After some types are kept, those are added whose texts are not among the kept ones.
  have hkept (kept : List HostType) : (types.foldl (fun kept type =>
      if kept.any fun other => other.text = type.text then kept else kept ++ [type]) kept).map
        HostType.text =
      kept.map HostType.text ++
        ((types.map HostType.text).filter fun t => t ∉ kept.map HostType.text).eraseDups := by
    induction types generalizing kept with
    | nil => simp
    | cons first rest ih =>
      have hany : (kept.any fun other => other.text = first.text) = true ↔
          first.text ∈ kept.map HostType.text := by
        simp
      rw [List.foldl_cons, ih, List.map_cons]
      by_cases hseen : first.text ∈ kept.map HostType.text
      · rw [if_pos (hany.2 hseen), List.filter_cons_of_neg (by simpa using hseen)]
      · rw [if_neg (mt hany.1 hseen), List.filter_cons_of_pos (by simpa using hseen),
          List.eraseDups_cons, List.filter_filter, List.map_append, List.append_assoc,
          List.map_singleton, List.singleton_append]
        congr 3
        refine List.filter_congr fun text _ => ?_
        rw [Bool.eq_iff_iff]
        simp [and_comm]
  have hall := hkept []
  rw [List.map_nil, List.nil_append, List.filter_eq_self.2 (by simp)] at hall
  exact hall

/-- The interface of a graph is written as its declarations say. -/
theorem listing_ofGraph (g : Graph) (contract : String) :
    (Interface.ofGraph g contract).listing = Listing.ofGraph g contract := by
  have hm := Mapping.flat_ofGraph g contract
  unfold Interface.ofGraph Interface.listing Listing.ofGraph
  simp only [List.map_map, Listing.mk.injEq, true_and]
  refine ⟨?_, ?_, ?_, ?_, ?_, ?_⟩
  · refine List.map_congr_left fun s _ => ?_
    exact congrArg (Block.mk _ _) (map_entry_ofField hm s.ownFields)
  · refine List.map_congr_left fun a _ => ?_
    exact congrArg (Definition.mk _) (Mapping.text_map hm a.target)
  · refine List.map_congr_left fun v _ => congrArg (Choice.mk _) ?_
    rw [Interface.variantOf, map_text_distinctTexts, List.map_map]
    exact congrArg List.eraseDups (List.map_congr_left fun b _ => Mapping.text_map hm b.type)
  · refine List.map_congr_left fun a _ => ?_
    exact congrArg (Signature.mk _) (map_entry_ofFields hm a.fields)
  · refine List.map_congr_left fun a _ => ?_
    exact congrArg (Signature.mk _) (map_entry_ofField hm a.fields)
  · exact List.map_congr_left fun _ _ => rfl

/-- The code of a graph is the text of its listing, and every part of the listing stands in it. -/
theorem writtenIn_of_emit {header : Header} {text : String}
    (he : emit g contract header = .ok text) :
    (Listing.ofGraph g contract).WrittenIn header.text text := by
  obtain ⟨i, hi, rfl⟩ := emit_eq_ok_iff.1 he
  obtain ⟨-, -, rfl⟩ := interface_eq_ok_iff.1 hi
  rw [← listing_ofGraph]
  exact Interface.writtenIn_text _ header

end ContractBinding.Binding
