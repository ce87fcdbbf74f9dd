import ContractBinding.Decimal.Layout
import ContractBinding.Json.Basic

/-!
# Writing JSON

The compact form has no spaces; the indented form puts every item and entry on a line of its
own. In texts only the double quote, the backslash and the controls are escaped.
-/

namespace ContractBinding.Json

/-- The written form of one character of a text. -/
def escapeChar (c : Char) : List Char :=
  if c = '"' then ['\\', '"']
  else if c = '\\' then ['\\', '\\']
  else if c = '\n' then ['\\', 'n']
  else if c = '\r' then ['\\', 'r']
  else if c = '\t' then ['\\', 't']
  else if c.toNat = 8 then ['\\', 'b']
  else if c.toNat = 12 then ['\\', 'f']
  else if c.toNat < 0x20 then
    ['\\', 'u', '0', '0', Nat.digitChar (c.toNat / 16), Nat.digitChar (c.toNat % 16)]
  else [c]

/-- A text between double quotes. -/
def encodeText (s : String) : String :=
  String.ofList ('"' :: s.toList.flatMap escapeChar ++ ['"'])

mutual

/-- The form without spaces. -/
def compact : Json → String
  | .null => "null"
  | .bool true => "true"
  | .bool false => "false"
  | .int n => toString n
  | .double x => Decimal.Layout.data.text x
  | .text s => encodeText s
  | .array items => "[" ++ ",".intercalate (compactItems items) ++ "]"
  | .object entries => "\x7b" ++ ",".intercalate (compactEntries entries) ++ "\x7d"

/-- The compact forms of the items. -/
def compactItems : List Json → List String
  | [] => []
  | item :: rest => item.compact :: compactItems rest

/-- The compact forms of the entries. -/
def compactEntries : List (String × Json) → List String
  | [] => []
  | (key, value) :: rest => (encodeText key ++ ":" ++ value.compact) :: compactEntries rest

end

/-- Lines between brackets, one step further in; nothing between the brackets of an empty
list. -/
def block (indent opening closing : String) (lines : List String) : String :=
  if lines.isEmpty then opening ++ closing
  else
    let inner := "\n" ++ indent ++ "  "
    opening ++ inner ++ ("," ++ inner).intercalate lines ++ "\n" ++ indent ++ closing

mutual

/-- The form with one item or entry a line, two spaces a level. -/
def indented (indent : String) : Json → String
  | .array items => block indent "[" "]" (indentedItems (indent ++ "  ") items)
  | .object entries =>
    block indent "\x7b" "\x7d" (indentedEntries (indent ++ "  ") entries)
  | value => value.compact

/-- The indented forms of the items. -/
def indentedItems (indent : String) : List Json → List String
  | [] => []
  | item :: rest => item.indented indent :: indentedItems indent rest

/-- The indented forms of the entries. -/
def indentedEntries (indent : String) : List (String × Json) → List String
  | [] => []
  | (key, value) :: rest =>
    (encodeText key ++ ": " ++ value.indented indent) :: indentedEntries indent rest

end

/-- The indented form, from the left margin. -/
def pretty (value : Json) : String := value.indented ""

end ContractBinding.Json
