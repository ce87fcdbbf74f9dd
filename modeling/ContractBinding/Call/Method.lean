import ContractBinding.Abi.Graph
import ContractBinding.Call.Fault
import ContractBinding.Name.Casing

/-!
# Methods of a contract

An action has two methods, one under its own name for arguments in order and one that takes an
object; a table has an accessor. A name of an action stands before that of an object method, and
both before an accessor. Among entries with one generated name the last counts.
-/

namespace ContractBinding.Call

/-- What a method name stands for. -/
inductive Method where
  | action (a : Abi.Action)
  | objectParams (a : Abi.Action)
  | table (t : Abi.Table)
  deriving DecidableEq, Repr

/-- The last entry with a generated name. -/
def lastNamed? {α : Type} (generated : α → String) (name : String) (entries : List α) :
    Option α :=
  entries.reverse.find? fun entry => generated entry = name

/-- The action of a name. -/
def action? (g : Abi.Graph) (name : String) : Except CallFault Abi.Action :=
  match lastNamed? Abi.Action.name name g.actions with
  | some a => .ok a
  | none => .error (.reference .action name)

/-- The table of a name. -/
def table? (g : Abi.Graph) (name : String) : Except CallFault Abi.Table :=
  match lastNamed? Abi.Table.name name g.tables with
  | some t => .ok t
  | none => .error (.reference .table name)

/-- The method of a name. -/
def method? (g : Abi.Graph) (name : String) : Except CallFault Method :=
  match lastNamed? Abi.Action.name name g.actions with
  | some a => .ok (.action a)
  | none =>
    match lastNamed? (fun a => Name.objectMethod a.name) name g.actions with
    | some a => .ok (.objectParams a)
    | none =>
      match lastNamed? (fun t => Name.tableAccessor t.name) name g.tables with
      | some t => .ok (.table t)
      | none => .error (.reference .method name)

end ContractBinding.Call
