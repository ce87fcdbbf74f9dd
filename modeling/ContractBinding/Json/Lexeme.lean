import ContractBinding.Decimal.Literal

/-!
# The lexemes of a JSON text

A JSON text is a row of brackets, commas, colons, texts, numbers and words with white space
between them. The scan goes through the characters once; what it is inside of is its mode.
-/

namespace ContractBinding.Json

/-- The smallest meaningful piece of a JSON text. A text whose escapes do not pair up to
characters has no content. -/
inductive Lexeme where
  | openArray
  | closeArray
  | openObject
  | closeObject
  | comma
  | colon
  | null
  | bool (value : Bool)
  | number (value : Decimal.Number)
  | text (content : Option String)
  deriving DecidableEq, Repr

namespace Lexeme

/-- One piece of a text: a character that stands for itself, or a 16-bit unit given by its
number. -/
inductive Piece where
  | char (c : Char)
  | unit (n : Nat)
  deriving DecidableEq, Repr

/-- The characters that the pieces of a text spell; a unit of the upper half has to be
followed by one of the lower half. -/
def Piece.spell? : List Piece → Option (List Char)
  | [] => some []
  | .char c :: rest => (spell? rest).map (c :: ·)
  | .unit n :: rest =>
    if 0xD800 ≤ n ∧ n ≤ 0xDBFF then
      match rest with
      | .unit m :: rest =>
        if 0xDC00 ≤ m ∧ m ≤ 0xDFFF then
          let c := Char.ofNat (0x10000 + (n - 0xD800) * 0x400 + (m - 0xDC00))
          (spell? rest).map (c :: ·)
        else none
      | _ => none
    else if 0xDC00 ≤ n ∧ n ≤ 0xDFFF then none
    else (spell? rest).map (Char.ofNat n :: ·)

/-- What the scan is inside of; collected characters are in reverse. -/
inductive Mode where
  | between
  | word (collected : List Char)
  | text (collected : List Piece)
  | escape (collected : List Piece)
  | hex (collected : List Piece) (digits : Nat) (value : Nat)

/-- The characters between lexemes. -/
def isSpace (c : Char) : Bool := c = ' ' || c = '\n' || c = '\r' || c = '\t'

/-- The characters of words and numbers. -/
def isWordChar (c : Char) : Bool := c.isAlphanum || c = '-' || c = '+' || c = '.'

/-- A word: `null`, a truth value or a number. -/
def ofWord? (word : List Char) : Option Lexeme :=
  if word = ['n', 'u', 'l', 'l'] then some .null
  else if word = ['t', 'r', 'u', 'e'] then some (.bool true)
  else if word = ['f', 'a', 'l', 's', 'e'] then some (.bool false)
  else (Decimal.Literal.read? word).map (.number ·.number)

/-- The lexeme of a single sign. -/
def ofSign? (c : Char) : Option Lexeme :=
  if c = '[' then some .openArray
  else if c = ']' then some .closeArray
  else if c = '\x7b' then some .openObject
  else if c = '\x7d' then some .closeObject
  else if c = ',' then some .comma
  else if c = ':' then some .colon
  else none

/-- The character an escape letter stands for. -/
def ofEscape? (c : Char) : Option Char :=
  if c = '"' ∨ c = '\\' ∨ c = '/' then some c
  else if c = 'b' then some '\x08'
  else if c = 'f' then some '\x0c'
  else if c = 'n' then some '\n'
  else if c = 'r' then some '\r'
  else if c = 't' then some '\t'
  else none

/-- The value of a hexadecimal digit. -/
def hexValue? (c : Char) : Option Nat :=
  if c.isDigit then some (c.toNat - 48)
  else if 'a' ≤ c ∧ c ≤ 'f' then some (c.toNat - 87)
  else if 'A' ≤ c ∧ c ≤ 'F' then some (c.toNat - 55)
  else none

/-- Begin a lexeme with a character that no lexeme is waiting for. -/
def start? (found : List Lexeme) (c : Char) : Option (Mode × List Lexeme) :=
  if isSpace c then some (.between, found)
  else if c = '"' then some (.text [], found)
  else if isWordChar c then some (.word [c], found)
  else (ofSign? c).map fun sign => (.between, sign :: found)

/-- Take one more character; the lexemes found are in reverse. -/
def step? (found : List Lexeme) (c : Char) : Mode → Option (Mode × List Lexeme)
  | .between => start? found c
  | .word collected =>
    if isWordChar c then some (.word (c :: collected), found)
    else (ofWord? collected.reverse).bind fun word => start? (word :: found) c
  | .text collected =>
    if c = '"' then
      some (.between, .text ((Piece.spell? collected.reverse).map String.ofList) :: found)
    else if c = '\\' then some (.escape collected, found)
    else if c.toNat < 0x20 then none
    else some (.text (.char c :: collected), found)
  | .escape collected =>
    if c = 'u' then some (.hex collected 0 0, found)
    else (ofEscape? c).map fun c => (.text (.char c :: collected), found)
  | .hex collected digits value =>
    (hexValue? c).map fun digit =>
      let value := value * 16 + digit
      if digits = 3 then (.text (.unit value :: collected), found)
      else (.hex collected (digits + 1) value, found)

/-- Scan the characters that are left. -/
def scanFrom? (mode : Mode) (found : List Lexeme) : List Char → Option (List Lexeme)
  | [] =>
    match mode with
    | .between => some found.reverse
    | .word collected => (ofWord? collected.reverse).map fun word => (word :: found).reverse
    | _ => none
  | c :: rest => (step? found c mode).bind fun (mode, found) => scanFrom? mode found rest

/-- The lexemes of a text. -/
def scan? (s : String) : Option (List Lexeme) := scanFrom? .between [] s.toList

end Lexeme

end ContractBinding.Json
