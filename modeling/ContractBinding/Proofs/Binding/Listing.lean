import ContractBinding.Proofs.Text.Lines

/-!
# Generated code as it is written

Generated code is a list of parts of a few kinds: the interfaces of structs, the types of aliases
and of variants, and the members of the interface of a contract. A listing holds what is written in
each part, as texts, and the text of the code is made of the listing and of nothing else. Every part
starts a line of the text, and so does every key of an interface.
-/

namespace ContractBinding.Binding

open Text (EndsLine HasLine)

/-- A key or a parameter. -/
structure Listing.Entry where
  name : String
  /-- Whether it has the mark of what may be left out. -/
  optional : Bool
  type : String
  deriving DecidableEq, Repr

/-- The interface of a struct. -/
structure Listing.Block where
  name : String
  parent : Option String
  entries : List Entry
  deriving DecidableEq, Repr

/-- The type of an alias. -/
structure Listing.Definition where
  name : String
  type : String
  deriving DecidableEq, Repr

/-- The type of a variant. -/
structure Listing.Choice where
  name : String
  types : List String
  deriving DecidableEq, Repr

/-- A method with its parameters, or with the keys of its object. -/
structure Listing.Signature where
  name : String
  entries : List Entry
  deriving DecidableEq, Repr

/-- A method that reads the rows of a table. -/
structure Listing.Accessor where
  name : String
  row : String
  deriving DecidableEq, Repr

/-- What is written in the code of a contract. -/
structure Listing where
  contract : String
  blocks : List Listing.Block
  definitions : List Listing.Definition
  choices : List Listing.Choice
  methods : List Listing.Signature
  bundles : List Listing.Signature
  accessors : List Listing.Accessor
  deriving DecidableEq, Repr

namespace Listing

/-- A name, its mark, and its type. -/
def Entry.text (e : Entry) : String :=
  e.name ++ (if e.optional then "?" else "") ++ ": " ++ e.type

/-- The line of a key in an interface. -/
def Entry.line (e : Entry) : String := "\t" ++ e.text ++ ";\n"

/-- What an interface extends. -/
def Block.heritage (b : Block) : String :=
  match b.parent with
  | some parent => " extends " ++ parent
  | none => ""

/-- The first line of an interface. -/
def Block.heading (b : Block) : String := "export interface " ++ b.name ++ b.heritage ++ " \x7b\n"

def Block.text (b : Block) : String :=
  b.heading ++ String.join (b.entries.map Entry.line) ++ "\x7d\n\n"

def Definition.text (d : Definition) : String :=
  "export type " ++ d.name ++ " = " ++ d.type ++ ";\n"

def Choice.text (c : Choice) : String :=
  "export type " ++ c.name ++ " = [number, " ++ " | ".intercalate c.types ++ "];\n"

/-- What every method takes at the end, and what it gives. -/
def callTail : String :=
  "options?: \x7b from?: Account, auths?: ActorPermission[] \x7d): Promise<any>;\n"

/-- A method that takes its arguments one by one. -/
def Signature.methodText (s : Signature) : String :=
  "\t" ++ s.name ++ "(" ++ String.join (s.entries.map fun e => e.text ++ ", ") ++ callTail

/-- The type of an object of arguments. -/
def Signature.bundle (s : Signature) : String :=
  if s.entries = [] then "\x7b\x7d"
  else "\x7b " ++ ", ".intercalate (s.entries.map Entry.text) ++ " \x7d"

/-- A method that takes its arguments as one object. -/
def Signature.bundleText (s : Signature) : String :=
  "\t" ++ s.name ++ "(params: " ++ s.bundle ++ ", " ++ callTail

def Accessor.text (a : Accessor) : String :=
  "\t" ++ a.name ++ "(options?: GetTableRowsOptions): Promise<TableRowsResult<" ++ a.row ++ ">>;\n"

/-- Parts under a title. -/
def titled (title : String) (parts : List String) : String := title ++ String.join parts

/-- The interface of the contract: a line for each of its members, and none besides. -/
def contractSection (l : Listing) : String :=
  "export interface " ++ l.contract ++ " extends Contract \x7b\n" ++
    titled "\t// Actions\n" (l.methods.map Signature.methodText) ++ "\n" ++
    titled "\t// Actions with object params\n" (l.bundles.map Signature.bundleText) ++ "\n" ++
    titled "\t// Tables\n" (l.accessors.map Accessor.text) ++ "\x7d\n"

/-- The text of a listing under a header. -/
def text (l : Listing) (header : String) : String :=
  header ++ titled "// Table row types\n" (l.blocks.map Block.text) ++
    titled "// Added Types\n" (l.definitions.map Definition.text) ++ "\n" ++
    titled "// Variants\n" (l.choices.map Choice.text) ++ "\n" ++ l.contractSection

/-- The names of the exported types, in the order of the text. -/
def typeExports (l : Listing) : List String :=
  l.blocks.map Block.name ++ l.definitions.map Definition.name ++ l.choices.map Choice.name

/-- The names of the members of the contract's interface, in the order of the text. -/
def members (l : Listing) : List String :=
  l.methods.map Signature.name ++ l.bundles.map Signature.name ++ l.accessors.map Accessor.name

/-- A text is made of a listing, and every part of the listing starts a line of it. -/
structure WrittenIn (l : Listing) (header text : String) : Prop where
  text_eq : text = l.text header
  /-- The text ends with the interface of the contract. -/
  contract : l.contractSection.toList <:+ text.toList
  blocks : ∀ b ∈ l.blocks, HasLine text b.text
  keys : ∀ b ∈ l.blocks, ∀ e ∈ b.entries, HasLine text e.line
  definitions : ∀ d ∈ l.definitions, HasLine text d.text
  choices : ∀ c ∈ l.choices, HasLine text c.text
  methods : ∀ s ∈ l.methods, HasLine text s.methodText
  bundles : ∀ s ∈ l.bundles, HasLine text s.bundleText
  accessors : ∀ a ∈ l.accessors, HasLine text a.text

/-! ### Parts and lines -/

theorem Entry.endsLine (e : Entry) : EndsLine e.line :=
  EndsLine.append ⟨[';'], by decide⟩ _

theorem Block.endsLine (b : Block) : EndsLine b.text :=
  EndsLine.append ⟨['\x7d', '\n'], by decide⟩ _

theorem Definition.endsLine (d : Definition) : EndsLine d.text :=
  EndsLine.append ⟨[';'], by decide⟩ _

theorem Choice.endsLine (c : Choice) : EndsLine c.text :=
  EndsLine.append ⟨[']', ';'], by decide⟩ _

/-- A method ends with a line. -/
theorem endsLine_callTail : EndsLine callTail := ⟨callTail.toList.dropLast, by decide⟩

theorem Signature.endsLine_methodText (s : Signature) : EndsLine s.methodText :=
  endsLine_callTail.append _

theorem Signature.endsLine_bundleText (s : Signature) : EndsLine s.bundleText :=
  endsLine_callTail.append _

theorem Accessor.endsLine (a : Accessor) : EndsLine a.text :=
  EndsLine.append ⟨['>', '>', ';'], by decide⟩ _

/-- Every key of an interface has a line. -/
theorem Block.hasLine_of_mem {b : Block} {e : Entry} (he : e ∈ b.entries) :
    HasLine b.text e.line := by
  have hheading : EndsLine b.heading := EndsLine.append ⟨[' ', '\x7b'], by decide⟩ _
  have hlines : HasLine (b.heading ++ String.join (b.entries.map Entry.line)) e.line :=
    Text.hasLine_section hheading Entry.endsLine he
  exact hlines.append_right _

/-- A line of the contract's interface is a line of the text. -/
theorem hasLine_of_contractSection {l : Listing} {header start : String}
    (h : HasLine l.contractSection start) : HasLine (l.text header) start := by
  unfold text
  exact h.append_left _

/-- Every part of a listing stands in its text. -/
theorem writtenIn_text (l : Listing) (header : String) : l.WrittenIn header (l.text header) := by
  have hblocks : ∀ b ∈ l.blocks, HasLine (l.text header) b.text := by
    intro b hb
    have hline : HasLine (titled "// Table row types\n" (l.blocks.map Block.text)) b.text :=
      Text.hasLine_section ⟨"// Table row types".toList, by decide⟩ Block.endsLine hb
    unfold text
    exact (((((hline.append_left _).append_right _).append_right _).append_right _).append_right
      _).append_right _
  constructor
  case text_eq => rfl
  case contract =>
    unfold text
    rw [String.toList_append]
    exact List.suffix_append _ _
  case blocks => exact hblocks
  case keys => exact fun b hb e he => (Block.hasLine_of_mem he).trans (hblocks b hb)
  case definitions =>
    intro d hd
    have hline : HasLine (titled "// Added Types\n" (l.definitions.map Definition.text)) d.text :=
      Text.hasLine_section ⟨"// Added Types".toList, by decide⟩ Definition.endsLine hd
    unfold text
    exact ((((hline.append_left _).append_right _).append_right _).append_right _).append_right _
  case choices =>
    intro c hc
    have hline : HasLine (titled "// Variants\n" (l.choices.map Choice.text)) c.text :=
      Text.hasLine_section ⟨"// Variants".toList, by decide⟩ Choice.endsLine hc
    unfold text
    exact ((hline.append_left _).append_right _).append_right _
  case methods =>
    intro s hs
    have hline : HasLine (titled "\t// Actions\n" (l.methods.map Signature.methodText))
        s.methodText :=
      Text.hasLine_section ⟨"\t// Actions".toList, by decide⟩ Signature.endsLine_methodText hs
    refine hasLine_of_contractSection ?_
    unfold contractSection
    exact (((((hline.append_left _).append_right _).append_right _).append_right _).append_right
      _).append_right _
  case bundles =>
    intro s hs
    have hline : HasLine
        (titled "\t// Actions with object params\n" (l.bundles.map Signature.bundleText))
        s.bundleText :=
      Text.hasLine_section ⟨"\t// Actions with object params".toList, by decide⟩
        Signature.endsLine_bundleText hs
    refine hasLine_of_contractSection ?_
    unfold contractSection
    exact (((hline.append_left _).append_right _).append_right _).append_right _
  case accessors =>
    intro a ha
    have hline : HasLine (titled "\t// Tables\n" (l.accessors.map Accessor.text)) a.text :=
      Text.hasLine_section ⟨"\t// Tables".toList, by decide⟩ Accessor.endsLine ha
    refine hasLine_of_contractSection ?_
    unfold contractSection
    exact (hline.append_left _).append_right _

end Listing

end ContractBinding.Binding
