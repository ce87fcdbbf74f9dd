import ContractBinding.Json.Basic

/-!
# Places inside a value

A path leads from a value that has a name to a part of it, through fields, items and the
branches of variants. Faults name the part they are about by its path.
-/

namespace ContractBinding.Host

/-- One step down into a value. -/
inductive Step where
  | field (name : String)
  | item (position : Nat)
  /-- From the pair of a variant to its second item. -/
  | branch (position : Nat)
  deriving DecidableEq, Repr

/-- The text of a step. -/
def Step.text : Step → String
  | .field name => "." ++ name
  | .item position => "[" ++ toString position ++ "]"
  | .branch position => "<" ++ toString position ++ ">"

/-- A place inside a value. -/
structure ValuePath where
  root : String
  steps : List Step := []
  deriving DecidableEq, Repr

namespace ValuePath

/-- The place one step farther down. -/
def push (p : ValuePath) (step : Step) : ValuePath := { p with steps := p.steps ++ [step] }

/-- The text of a path: `row.prizes[2]<0>.amount`. -/
def text (p : ValuePath) : String := p.steps.foldl (fun text step => text ++ step.text) p.root

end ValuePath

/-- The part of a value one step down, if there is one. -/
def Step.follow? : Step → Json → Option Json
  | .field name, value => value.get? name
  | .item position, .array items => items[position]?
  | .branch _, .array [_, payload] => some payload
  | _, _ => none

end ContractBinding.Host
