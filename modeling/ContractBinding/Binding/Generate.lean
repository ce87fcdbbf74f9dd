import ContractBinding.Abi.Resolve
import ContractBinding.Binding.Render

/-!
# Generating the code of a contract

Code is generated for a contract name that is an identifier, and from a graph in which every
reference is declared. A resolved graph always is such a graph; one that has been edited since
is checked again before any text is made.
-/

namespace ContractBinding.Binding

open Abi

/-- The declared name under the arrays of an expression is in the index. -/
def checkType (g : Graph) (site : Site) (expr : TypeExpr) : Except Problem Unit :=
  match expr.namedRef? with
  | some name => if g.declares name then .ok () else .error (.danglingType site name)
  | none => .ok ()

/-- The base and the fields of a struct are declared. -/
def checkStruct (g : Graph) (s : Struct) : Except Problem Unit := do
  match s.base with
  | some base => if (g.struct? base).isNone then throw (.danglingBase s.name base)
  | none => pure ()
  s.fields.forM fun f => checkType g (.structField s.name f.name) f.type.expr

/-- Every reference of a graph is declared. -/
def checkReferences (g : Graph) : Except Problem Unit := do
  g.structs.forM (checkStruct g)
  g.aliases.forM fun a => checkType g (.entry .alias a.name) a.target
  g.variants.forM fun v => v.branches.forM fun b => checkType g (.entry .variant v.name) b.type
  g.actions.forM fun a => a.fields.forM fun f =>
    checkType g (.actionField a.name f.name) f.type.expr
  g.tables.forM fun t =>
    if (g.struct? t.rowStruct).isNone then .error (.danglingRow t.name t.rowStruct) else .ok ()

/-- The interface of a graph, or the first problem. -/
def interface (g : Graph) (contract : String) : Except Problem Interface := do
  if !Name.isIdentifier contract then throw (.contractName contract)
  checkReferences g
  return Interface.ofGraph g contract

/-- The code of a graph. -/
def emit (g : Graph) (contract : String) (h : Header) : Except Problem String := do
  return (← interface g contract).text h

/-- The code of a document's text. -/
def generate (abi contract : String) (h : Header) : Except Problem String := do
  emit (← loadGraph abi) contract h

end ContractBinding.Binding
