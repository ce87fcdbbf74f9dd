import ContractBinding.Json.Basic
import ContractBinding.Json.Lexeme

/-!
# JSON as it is written

The tree of a JSON text before it is taken for a value: entries stand in the order of the
text with repeated keys, a text whose escapes spell nothing has no content, and a number may be
beyond every binary value. A part of a text that nobody reads need only be well formed in this
sense; a part that is read for its value has to denote one.
-/

namespace ContractBinding.Json

/-- The tree of a JSON text. -/
inductive Written where
  | null
  | bool (value : Bool)
  | number (value : Decimal.Number)
  | text (content : Option String)
  | array (items : List Written)
  | object (entries : List (Option String × Written))
  deriving Repr

namespace Written

instance : Inhabited Written := ⟨.null⟩

/-- A bracket that has been opened, with what has been read inside of it, in reverse. -/
inductive Frame where
  | items (read : List Written)
  | entries (read : List (Option String × Written)) (key : Option String)

/-- What may come next. -/
inductive Expecting where
  /-- A value; right after `[` the bracket may close instead. -/
  | value (mayClose : Bool)
  /-- A key of the object with these entries; right after the brace it may close instead. -/
  | key (read : List (Option String × Written)) (mayClose : Bool)
  /-- The colon after a key. -/
  | colon (read : List (Option String × Written)) (key : Option String)
  /-- A comma, or the closing of the innermost bracket. -/
  | separator
  /-- Nothing: the value is complete. -/
  | nothing (value : Written)

/-- Put a complete value where it belongs. -/
def place (value : Written) : List Frame → Expecting × List Frame
  | [] => (.nothing value, [])
  | .items read :: outer => (.separator, .items (value :: read) :: outer)
  | .entries read key :: outer => (.separator, .entries ((key, value) :: read) none :: outer)

/-- The value a single lexeme stands for. -/
def ofLexeme? : Lexeme → Option Written
  | .null => some .null
  | .bool b => some (.bool b)
  | .number n => some (.number n)
  | .text content => some (.text content)
  | _ => none

/-- Take one more lexeme. -/
def step? (lexeme : Lexeme) : Expecting → List Frame → Option (Expecting × List Frame)
  | .value mayClose, open_ =>
    match lexeme, open_ with
    | .openArray, _ => some (.value true, .items [] :: open_)
    | .openObject, _ => some (.key [] true, open_)
    | .closeArray, .items [] :: outer =>
      if mayClose then some (place (.array []) outer) else none
    | _, _ => (ofLexeme? lexeme).map (place · open_)
  | .key read mayClose, open_ =>
    match lexeme with
    | .text key => some (.colon read key, open_)
    | .closeObject => if mayClose then some (place (.object []) open_) else none
    | _ => none
  | .colon read key, open_ =>
    if lexeme = .colon then some (.value false, .entries read key :: open_) else none
  | .separator, open_ =>
    match lexeme, open_ with
    | .comma, .items _ :: _ => some (.value false, open_)
    | .comma, .entries read _ :: outer => some (.key read false, outer)
    | .closeArray, .items read :: outer => some (place (.array read.reverse) outer)
    | .closeObject, .entries read _ :: outer => some (place (.object read.reverse) outer)
    | _, _ => none
  | .nothing _, _ => none

/-- Build the tree of the lexemes that are left. -/
def buildFrom? (expecting : Expecting) (open_ : List Frame) : List Lexeme → Option Written
  | [] => match expecting with
    | .nothing value => some value
    | _ => none
  | lexeme :: rest =>
    (step? lexeme expecting open_).bind fun (expecting, open_) => buildFrom? expecting open_ rest

/-- The tree of a JSON text. -/
def read? (s : String) : Option Written :=
  (Lexeme.scan? s).bind (buildFrom? (.value false) [])

mutual

/-- The value a tree denotes; every text needs a content and every number a finite value. -/
def toJson? : Written → Option Json
  | .null => some .null
  | .bool b => some (.bool b)
  | .number (.int n) => some (.int n)
  | .number (.double x) => if x.isInfinite then none else some (.double x)
  | .text content => content.map .text
  | .array items => (toItems? items).map .array
  | .object entries => (toEntries? entries).map Json.ofEntries

/-- The values of the items. -/
def toItems? : List Written → Option (List Json)
  | [] => some []
  | item :: rest => do
    let item ← item.toJson?
    let rest ← toItems? rest
    some (item :: rest)

/-- The entries with their keys and values. -/
def toEntries? : List (Option String × Written) → Option (List (String × Json))
  | [] => some []
  | (key, value) :: rest => do
    let key ← key
    let value ← value.toJson?
    let rest ← toEntries? rest
    some ((key, value) :: rest)

end

end Written

/-- The value of a JSON text. -/
def parse? (s : String) : Option Json := (Written.read? s).bind Written.toJson?

end ContractBinding.Json
