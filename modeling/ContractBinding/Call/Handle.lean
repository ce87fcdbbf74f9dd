import ContractBinding.Call.Method
import ContractBinding.Call.Preparation
import ContractBinding.Table.Coercion
import ContractBinding.Usage.Ledger

/-!
# Contract handles

A handle stands for a deployed contract. It prepares calls, sends them to the chain by way of a
transport, reads the rows that come back, and keeps the processor time of its calls if it has a
ledger. Every exchange sends at most one message.
-/

namespace ContractBinding.Call

universe u v

/-- A deployed contract. -/
structure Handle where
  account : Account
  graph : Abi.Graph
  ledger : Option Usage.Ledger := none

/-- What is sent to the chain. -/
inductive Message where
  | transaction (call : Prepared)
  | request (request : Table.Request)
  deriving Repr

/-- How the chain answers; an error is in its own words. -/
structure Transport where
  transact : Prepared → Except String Json
  rows : Table.Request → Except String (Table.Page Json)

/-- The outcome of an exchange, the messages that were sent, and the handle after it. -/
structure Exchange (α : Type u) where
  outcome : Except CallFault α
  sent : List Message
  handle : Handle

namespace Exchange

variable {α : Type u} {β : Type v}

/-- An exchange that has come to its end without a message. -/
def silent (handle : Handle) (outcome : Except CallFault α) : Exchange α :=
  { outcome, sent := [], handle }

/-- The same exchange with another view of its answer. -/
def map (f : α → β) (e : Exchange α) : Exchange β :=
  { outcome := e.outcome.map f, sent := e.sent, handle := e.handle }

end Exchange

namespace Handle

/-- The call of an action of the contract. -/
def prepare (h : Handle) (action : String) (arguments : Arguments) (options : Options) :
    Except CallFault Prepared := do
  Call.prepare h.graph h.account (← action? h.graph action) arguments options

/-- The processor time in the receipt of a transaction: a whole number of 64 bits. -/
def processorTime? (receipt : Json) : Option Nat :=
  ((receipt.getPath? ["processed", "receipt", "cpu_usage_us"]).bind Json.natural?).filter
    (· < UInt64.size)

/-- The name under which the ledger keeps an action. -/
def ledgerName (h : Handle) (action : String) : String := h.account.name ++ "::" ++ action

/-- Keep the processor time of a transaction, if the receipt has one and there is a ledger. -/
def record (h : Handle) (action : String) (receipt : Json) : Handle :=
  match h.ledger, processorTime? receipt with
  | some ledger, some time => { h with ledger := some (ledger.log (h.ledgerName action) time) }
  | _, _ => h

/-- Call an action. The processor time is kept for arguments in order only. -/
def invoke (h : Handle) (chain : Transport) (action : String) (arguments : Arguments)
    (options : Options) : Exchange Json :=
  match h.prepare action arguments options with
  | .error fault => .silent h (.error fault)
  | .ok call =>
    let sent := [Message.transaction call]
    match chain.transact call with
    | .error words => { outcome := .error (.transport words), sent, handle := h }
    | .ok receipt =>
      let handle := match arguments with
        | .positional _ => h.record action receipt
        | .object _ => h
      { outcome := .ok receipt, sent, handle }

/-- The struct of the rows of a table. -/
def rowStruct? (h : Handle) (table : String) : Except CallFault Abi.Struct := do
  let t ← table? h.graph table
  match h.graph.struct? t.rowStruct with
  | some s => return s
  | none => .error (.reference .rowType t.rowStruct)

/-- Ask for rows of a table and read them. -/
def query (h : Handle) (chain : Transport) (table : String) (query : Table.Query) :
    Exchange (Table.Page Table.Row) :=
  match h.rowStruct? table with
  | .error fault => .silent h (.error fault)
  | .ok s =>
    let request : Table.Request := { code := h.account.name, table, query }
    let outcome := match chain.rows request with
      | .error words => .error (.transport words)
      | .ok page => Table.coercePage h.graph s query.layout page
    { outcome, sent := [.request request], handle := h }

/-- The options in the arguments of an accessor: one object, in order or by itself. -/
def tableOptions (method : String) (arguments : Arguments) : Except CallFault Table.Query :=
  let decode (wire : Json) : Except CallFault Table.Query :=
    match Table.Query.ofJson? wire with
    | some query => .ok query
    | none => .error (.arity method .notOptions)
  match arguments with
  | .object entries => decode (HostValue.struct entries).toWire
  | .positional slots =>
    if 1 < slots.length then .error (.arity method (.tooManyOptions slots.length))
    else match slots.head?.join with
      | some value => decode value.toWire
      | none => .ok {}

/-- Call a method by its name. A table answers the JSON view of its page. -/
def call (h : Handle) (chain : Transport) (method : String) (arguments : Arguments)
    (options : Options) : Exchange Json :=
  match method? h.graph method with
  | .error fault => .silent h (.error fault)
  | .ok (.action a) => h.invoke chain a.name arguments options
  | .ok (.objectParams a) =>
    match arguments with
    | .object _ => h.invoke chain a.name arguments options
    | .positional slots => .silent h (.error (.arity a.name (.notAnObject slots.length)))
  | .ok (.table t) =>
    match tableOptions method arguments with
    | .error fault => .silent h (.error fault)
    | .ok query => (h.query chain t.name query).map Table.Page.toWire

end Handle

end ContractBinding.Call
