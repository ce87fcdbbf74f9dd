/-!
# Identifiers, parameters and property keys

An identifier of the generated code is made of ASCII letters, digits, `_` and `$` and does not
start with a digit. A parameter has to be an identifier that is not reserved; a property key may
be any text, and is quoted where it is no identifier.
-/

namespace ContractBinding.Name

/-- A letter, `_` or `$`. -/
def isIdentifierStart (c : Char) : Bool := c.isAlpha || c = '_' || c = '$'

/-- A letter, a digit, `_` or `$`. -/
def isIdentifierPart (c : Char) : Bool := c.isAlphanum || c = '_' || c = '$'

/-- An identifier. -/
def isIdentifierChars : List Char → Bool
  | [] => false
  | c :: rest => isIdentifierStart c && rest.all isIdentifierPart

/-- A text that is an identifier. -/
def isIdentifier (s : String) : Bool := isIdentifierChars s.toList

/-- The identifiers that cannot name a parameter. -/
def reservedWords : List String :=
  ["arguments", "await", "break", "case", "catch", "class", "const", "continue", "debugger",
   "default", "delete", "do", "else", "enum", "eval", "export", "extends", "false", "finally",
   "for", "function", "if", "implements", "import", "in", "instanceof", "interface", "let",
   "new", "null", "package", "private", "protected", "public", "return", "static", "super",
   "switch", "this", "throw", "true", "try", "typeof", "var", "void", "while", "with", "yield"]

def isReserved (s : String) : Bool := reservedWords.contains s

/-- Every character that no identifier holds becomes `_`. -/
def identifierChars (name : List Char) : List Char :=
  name.map fun c => if isIdentifierPart c then c else '_'

/-- A name that is empty or starts with a digit gets `_` in front. -/
def guardStart : List Char → List Char
  | [] => ['_']
  | c :: rest => if c.isDigit then '_' :: c :: rest else c :: rest

/-- The parameter for a field; a reserved word gets `_` at its end. -/
def parameterName (field : String) : String :=
  let name := String.ofList (guardStart (identifierChars field.toList))
  if isReserved name then name ++ "_" else name

/-- The parameter at the end of every method, for the options of the call. -/
def optionsParameter : String := "options"

/-- The name with `count` underscores after it. -/
def padded (name : String) (count : Nat) : String :=
  name ++ String.ofList (List.replicate count '_')

/-- The name with the fewest underscores after it that is not taken. One more candidate than
there are taken names is enough. -/
def distinctFrom (taken : List String) (name : String) : String :=
  (((List.range (taken.length + 1)).map (padded name)).find? fun candidate =>
    !taken.contains candidate).getD name

/-- The parameters of fields, each distinct from the taken names and the earlier ones. -/
def parameterNamesFrom (taken : List String) : List String → List String
  | [] => []
  | field :: rest =>
    let name := distinctFrom taken (parameterName field)
    name :: parameterNamesFrom (name :: taken) rest

/-- The parameters of an action's fields, in field order. -/
def parameterNames (fields : List String) : List String :=
  parameterNamesFrom [optionsParameter] fields

/-- A character inside single quotes. -/
def keyChar (c : Char) : List Char := if c = '\\' ∨ c = '\'' then ['\\', c] else [c]

/-- The key of a field in an interface: the name itself, between single quotes where it is no
identifier. -/
def propertyKey (field : String) : String :=
  if isIdentifier field then field
  else String.ofList ('\'' :: field.toList.flatMap keyChar ++ ['\''])

example : parameterName "1st" = "_1st" := by decide
example : parameterName "new" = "new_" := by decide
example : parameterNames ["a.b", "a_b", "a_b_", "options", "options_"] =
    ["a_b", "a_b_", "a_b__", "options_", "options__"] := by decide
example : propertyKey "a.b" = "'a.b'" := by decide

end ContractBinding.Name
