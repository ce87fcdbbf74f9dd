import ContractBinding.Text.Blank
import ContractBinding.Text.Quoted
import ContractBinding.Type.Primitive

/-!
# Type expressions and type tokens

A type expression is a built-in type, a declared name or an array. A type token is its text in
a contract: a base, a pair of brackets for every array level, then `?` for a value that may be
null and `$` for a field that older rows lack. The two marks belong to the field, not to the
type.
-/

namespace ContractBinding

/-- The type of a value. -/
inductive TypeExpr where
  | primitive (p : Primitive)
  | array (element : TypeExpr)
  /-- An alias, a struct or a variant of the same contract. -/
  | named (name : String)
  deriving DecidableEq, Repr

/-- A type with the marks of a field. -/
structure FieldType where
  expr : TypeExpr
  /-- May be absent from older rows, and is never required in a call. -/
  binaryExtension : Bool
  /-- The value may be null. -/
  optional : Bool
  deriving DecidableEq, Repr

/-- Why a token is no type. -/
inductive TokenFault where
  | extensionMark
  | optionalMark
  | noElement
  | badCharacter
  deriving DecidableEq, Repr

/-- A token that is no type. -/
structure MalformedToken where
  token : String
  fault : TokenFault
  deriving DecidableEq, Repr

namespace TokenFault

/-- The reason in words. -/
def message : TokenFault → String
  | .extensionMark => "`$` may only appear once, at the end"
  | .optionalMark =>
    "`?` may only mark the whole field type; optional array elements are not supported"
  | .noElement => "missing element type"
  | .badCharacter => "unexpected character in type name"

end TokenFault

namespace MalformedToken

/-- The token as it was given, and the reason. -/
def message (m : MalformedToken) : String :=
  "malformed type " ++ Text.quoted m.token ++ ": " ++ m.fault.message

end MalformedToken

namespace TypeExpr

/-- The declared name below all array levels. -/
def namedRef? : TypeExpr → Option String
  | .primitive _ => none
  | .array element => element.namedRef?
  | .named name => some name

/-- The text of a type expression. -/
def display : TypeExpr → String
  | .primitive p => p.abiName
  | .array element => element.display ++ "[]"
  | .named name => name

/-- The type with `depth` array levels around it. -/
def nest : Nat → TypeExpr → TypeExpr
  | 0, expr => expr
  | depth + 1, expr => .array (nest depth expr)

/-- How many array levels a type has. -/
def depth : TypeExpr → Nat
  | .array element => element.depth + 1
  | _ => 0

/-- The type of a base: a built-in type where the name is one. -/
def ofBase (base : String) : TypeExpr :=
  match Primitive.ofName? base with
  | some p => .primitive p
  | none => .named base

end TypeExpr

namespace FieldType

/-- The token of a field type. -/
def display (t : FieldType) : String :=
  t.expr.display ++ (if t.optional then "?" else "") ++ (if t.binaryExtension then "$" else "")

/-- Take one mark off the end. -/
def stripMark (mark : Char) (cs : List Char) : List Char × Bool :=
  if cs.getLast? = some mark then (cs.dropLast, true) else (cs, false)

/-- Take array brackets off the front of a reversed text, and count them. -/
def stripBrackets : List Char → List Char × Nat
  | ']' :: '[' :: rest => let (base, depth) := stripBrackets rest; (base, depth + 1)
  | cs => (cs, 0)

/-- A character that no base holds. -/
def isForbidden (c : Char) : Bool := c = '[' || c = ']' || Text.isBlank c

/-- Read the characters of a token that has been trimmed. -/
def parseChars (cs : List Char) : Except TokenFault FieldType :=
  let (body, binaryExtension) := stripMark '$' cs
  if body.contains '$' then .error .extensionMark
  else
    let (body, optional) := stripMark '?' body
    if body.contains '?' then .error .optionalMark
    else
      let (reversed, depth) := stripBrackets body.reverse
      let base := reversed.reverse
      if base.isEmpty then .error .noElement
      else if base.any isForbidden then .error .badCharacter
      else .ok {
        expr := (TypeExpr.ofBase (String.ofList base)).nest depth
        binaryExtension
        optional }

/-- Read a token; blanks around it do not count. -/
def parse (token : String) : Except MalformedToken FieldType :=
  (parseChars (Text.trimChars token.toList)).mapError fun fault => ⟨token, fault⟩

example : (parse " asset[]?$ ").toOption =
    some ⟨.array (.primitive .asset), true, true⟩ := by decide
example : parse "int8[3]" = .error ⟨"int8[3]", .badCharacter⟩ := by rfl

end FieldType

end ContractBinding
