/-!
# Casing of names

A contract names its types and actions in lower case with separators of any kind. Generated
names are made of the words of such a name: the runs of ASCII letters and digits, and the word
`Vec` for every array mark `[]`. Only the first letter of a word changes its case.
-/

namespace ContractBinding.Name

/-- The word for an array mark. -/
def arrayWord : List Char := ['V', 'e', 'c']

/-- Put a word that has just ended in front; an empty one is no word. -/
def endWord (word : List Char) (words : List (List Char)) : List (List Char) :=
  if word.isEmpty then words else word :: words

/-- The words of a name whose first word has begun with `word`. -/
def wordsFrom (word : List Char) : List Char → List (List Char)
  | [] => endWord word []
  | '[' :: ']' :: rest => endWord word (arrayWord :: wordsFrom [] rest)
  | c :: rest =>
    if c.isAlphanum then wordsFrom (word ++ [c]) rest else endWord word (wordsFrom [] rest)

/-- The words of a name. -/
def words (name : List Char) : List (List Char) := wordsFrom [] name

/-- The first letter in upper case. -/
def capitalize : List Char → List Char
  | [] => []
  | c :: rest => c.toUpper :: rest

/-- The first letter in lower case. -/
def uncapitalize : List Char → List Char
  | [] => []
  | c :: rest => c.toLower :: rest

/-- Every word capitalised: `extended_symbol` becomes `ExtendedSymbol`. -/
def pascalChars (name : List Char) : List Char := (words name).flatMap capitalize

/-- Every word but the first capitalised: `dac_members` becomes `dacMembers`. -/
def camelChars (name : List Char) : List Char :=
  match words name with
  | [] => []
  | first :: rest => uncapitalize first ++ rest.flatMap capitalize

/-- `pascalChars` of a text. -/
def pascalCase (name : String) : String := String.ofList (pascalChars name.toList)

/-- `camelChars` of a text. -/
def camelCase (name : String) : String := String.ofList (camelChars name.toList)

/-- The generated type of a declaration: the contract's name, then the declaration's. -/
def typeName (contract declared : String) : String := contract ++ pascalCase declared

/-- The accessor of a table. -/
def tableAccessor (table : String) : String := camelCase table ++ "Table"

/-- The method that takes an action's arguments as one object. -/
def objectMethod (action : String) : String := action ++ "O"

example : pascalCase "uint32[]_x" = "Uint32VecX" := by decide
example : pascalCase "INT16_VEC" = "INT16VEC" := by decide
example : camelCase "dac_members" = "dacMembers" := by decide
example : tableAccessor "vote_weights" = "voteWeightsTable" := by decide

end ContractBinding.Name
