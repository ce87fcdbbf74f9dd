import ContractBinding.Call.Handle
import ContractBinding.Proofs.Call.Dispatch
import ContractBinding.Proofs.Call.Reduction

/-!
# What a handle is asked for

A handle is asked to call a method by its name, to call an action or to read a table. An ask means
a call of one action or a reading of one table, or it means nothing and nothing is sent. A call is
refused before anything is sent, or it is sent and the chain refuses it or takes it; and so is a
request for rows.
-/

namespace ContractBinding

/-- A name is unknown. -/
def CallFault.IsReference : CallFault → Prop
  | .reference _ _ => True
  | _ => False

namespace Call

open Abi (Action Graph)

/-- What is asked of a handle. -/
inductive Ask where
  | call (method : String) (arguments : Arguments) (options : Options)
  | invoke (action : String) (arguments : Arguments) (options : Options)
  | query (table : String) (query : Table.Query)

/-- A step of a session: what is asked, and how the chain answers meanwhile. -/
structure Step where
  ask : Ask
  chain : Transport

/-- What a step answers. -/
inductive Answer where
  | json (value : Json)
  | page (page : Table.Page Table.Row)

/-- Take a step with a handle. -/
def Handle.take (h : Handle) (step : Step) : Exchange Answer :=
  match step.ask with
  | .call method arguments options => (h.call step.chain method arguments options).map .json
  | .invoke action arguments options => (h.invoke step.chain action arguments options).map .json
  | .query table query => (h.query step.chain table query).map .page

/-- What an ask leads to: a call of an action, or a reading of a table. -/
inductive Plan where
  | transact (a : Action) (arguments : Arguments) (options : Options)
  | read (t : Abi.Table) (query : Table.Query)

/-- An ask means a plan. -/
inductive Ask.Means (g : Graph) : Ask → Plan → Prop where
  | action {name : String} {a : Action} {arguments : Arguments} {options : Options}
    (ha : action? g name = .ok a) :
    Means g (.invoke name arguments options) (.transact a arguments options)
  | method {name : String} {a : Action} {arguments : Arguments} {options : Options}
    (hm : method? g name = .ok (.action a)) :
    Means g (.call name arguments options) (.transact a arguments options)
  | objectMethod {name : String} {a : Action} {entries : List (String × HostValue)}
    {options : Options} (hm : method? g name = .ok (.objectParams a)) :
    Means g (.call name (.object entries) options) (.transact a (.object entries) options)
  | table {name : String} {t : Abi.Table} {query : Table.Query} (ht : table? g name = .ok t) :
    Means g (.query name query) (.read t query)
  | accessor {name : String} {t : Abi.Table} {arguments : Arguments} {options : Options}
    {query : Table.Query} (hm : method? g name = .ok (.table t))
    (ho : Handle.tableOptions name arguments = .ok query) :
    Means g (.call name arguments options) (.read t query)

/-- An ask means one thing. -/
theorem Ask.Means.unique {g : Graph} {ask : Ask} {p q : Plan} (hp : ask.Means g p)
    (hq : ask.Means g q) : p = q := by
  cases hp with
  | action ha => cases hq with | action ha' => cases ha.symm.trans ha'; rfl
  | method hm =>
    cases hq with
    | method hm' => cases hm.symm.trans hm'; rfl
    | objectMethod hm' => cases hm.symm.trans hm'
    | accessor hm' _ => cases hm.symm.trans hm'
  | objectMethod hm =>
    cases hq with
    | method hm' => cases hm.symm.trans hm'
    | objectMethod hm' => cases hm.symm.trans hm'; rfl
    | accessor hm' _ => cases hm.symm.trans hm'
  | table ht => cases hq with | table ht' => cases ht.symm.trans ht'; rfl
  | accessor hm ho =>
    cases hq with
    | method hm' => cases hm.symm.trans hm'
    | objectMethod hm' => cases hm.symm.trans hm'
    | accessor hm' ho' =>
      cases hm.symm.trans hm'
      cases ho.symm.trans ho'
      rfl

/-- An entry that a generated name leads to is also found under the name that it was generated
from. -/
theorem lastNamed?_of_generated {α : Type} {own generated : α → String} {entries : List α}
    {name : String} {entry : α} (h : lastNamed? generated name entries = some entry)
    (hgenerated : ∀ a b, own a = own b → generated a = generated b) :
    lastNamed? own (own entry) entries = some entry := by
  obtain ⟨hname, before, after, hsplit, hbefore⟩ := List.find?_eq_some_iff_append.1 h
  refine List.find?_eq_some_iff_append.2 ⟨by simp, before, after, hsplit, ?_⟩
  intro other hother
  -- What stands behind the entry was given another name, so it has another name of its own.
  have hne : generated other ≠ name := by simpa using hbefore other hother
  have howner : own other ≠ own entry := by
    intro he
    exact hne ((hgenerated other entry he).trans (by simpa using hname))
  simpa using howner

/-- An action is found exactly where the lookup by name finds it. -/
theorem action?_eq_ok_iff {g : Graph} {name : String} {a : Action} :
    action? g name = .ok a ↔ lastNamed? Action.name name g.actions = some a := by
  unfold action?
  cases lastNamed? Action.name name g.actions with
  | none => simp
  | some b => simp

/-- A table is found exactly where the lookup by name finds it. -/
theorem table?_eq_ok_iff {g : Graph} {name : String} {t : Abi.Table} :
    table? g name = .ok t ↔ lastNamed? Abi.Table.name name g.tables = some t := by
  unfold table?
  cases lastNamed? Abi.Table.name name g.tables with
  | none => simp
  | some b => simp

/-- The action that a method stands for is found under its own name. -/
theorem action?_of_method? {g : Graph} {name : String} {a : Action}
    (h : method? g name = .ok (.action a) ∨ method? g name = .ok (.objectParams a)) :
    action? g a.name = .ok a := by
  rw [action?_eq_ok_iff]
  unfold method? at h
  cases haction : lastNamed? Action.name name g.actions with
  | some b =>
    simp only [haction, Except.ok.injEq, Method.action.injEq, reduceCtorEq, or_false] at h
    subst h
    exact lastNamed?_of_generated haction fun _ _ => id
  | none =>
    cases hobject : lastNamed? (fun a => Name.objectMethod a.name) name g.actions with
    | some b =>
      simp only [haction, hobject, Except.ok.injEq, Method.objectParams.injEq, reduceCtorEq,
        false_or] at h
      subst h
      exact lastNamed?_of_generated hobject fun _ _ he => congrArg Name.objectMethod he
    | none =>
      simp only [haction, hobject] at h
      split at h <;> simp at h

/-- The table that an accessor stands for is found under its own name. -/
theorem table?_of_method? {g : Graph} {name : String} {t : Abi.Table}
    (h : method? g name = .ok (.table t)) : table? g t.name = .ok t := by
  rw [table?_eq_ok_iff]
  unfold method? at h
  split at h
  · simp at h
  · split at h
    · simp at h
    · split at h
      · next other htable =>
        cases h
        exact lastNamed?_of_generated htable fun _ _ he => congrArg Name.tableAccessor he
      · simp at h

/-- The handle once the chain has taken a call of an action. -/
def Handle.credited (h : Handle) (name : String) (receipt : Json) : Arguments → Handle
  | .positional _ => h.record name receipt
  | .object _ => h

/-- What comes of a call of an action: it is refused before anything is sent, or it is sent and the
chain refuses it or takes it. -/
inductive Invoked (h : Handle) (chain : Transport) (a : Action) (arguments : Arguments)
    (options : Options) : Exchange Json → Prop where
  | refused {fault : CallFault}
    (hp : prepare h.graph h.account a arguments options = .error fault) :
    Invoked h chain a arguments options (.silent h (.error fault))
  | failed {call : Prepared} {words : String}
    (hp : prepare h.graph h.account a arguments options = .ok call)
    (ht : chain.transact call = .error words) :
    Invoked h chain a arguments options
      { outcome := .error (.transport words), sent := [.transaction call], handle := h }
  | taken {call : Prepared} {receipt : Json}
    (hp : prepare h.graph h.account a arguments options = .ok call)
    (ht : chain.transact call = .ok receipt) :
    Invoked h chain a arguments options
      { outcome := .ok receipt, sent := [.transaction call],
        handle := h.credited a.name receipt arguments }

/-- An action that is found is called. -/
theorem invoked_invoke {h : Handle} {a : Action} (ha : action? h.graph a.name = .ok a)
    (chain : Transport) (arguments : Arguments) (options : Options) :
    Invoked h chain a arguments options (h.invoke chain a.name arguments options) := by
  have hprepare : h.prepare a.name arguments options =
      prepare h.graph h.account a arguments options := by
    rw [Handle.prepare, ha]
    rfl
  unfold Handle.invoke
  rw [hprepare]
  cases hp : prepare h.graph h.account a arguments options with
  | error fault => exact .refused hp
  | ok call =>
    dsimp only
    cases ht : chain.transact call with
    | error words => exact .failed hp ht
    | ok receipt =>
      cases arguments with
      | positional slots => exact .taken hp ht
      | object entries => exact .taken hp ht

/-- The request for rows of a table. -/
def rowRequest (account : Account) (t : Abi.Table) (query : Table.Query) : Table.Request :=
  { code := account.name, table := t.name, query }

/-- What comes of a query of a table: its rows have no struct, or the request is sent and the chain
refuses it, or its answer is read. -/
inductive Queried (h : Handle) (chain : Transport) (t : Abi.Table) (query : Table.Query) :
    Exchange (Table.Page Table.Row) → Prop where
  | untyped (hs : h.graph.struct? t.rowStruct = none) :
    Queried h chain t query (.silent h (.error (.reference .rowType t.rowStruct)))
  | failed {s : Abi.Struct} {words : String} (hs : h.graph.struct? t.rowStruct = some s)
    (hr : chain.rows (rowRequest h.account t query) = .error words) :
    Queried h chain t query
      { outcome := .error (.transport words), sent := [.request (rowRequest h.account t query)],
        handle := h }
  | answered {s : Abi.Struct} {page : Table.Page Json} (hs : h.graph.struct? t.rowStruct = some s)
    (hr : chain.rows (rowRequest h.account t query) = .ok page) :
    Queried h chain t query
      { outcome := Table.coercePage h.graph s query.layout page,
        sent := [.request (rowRequest h.account t query)], handle := h }

/-- A table that is found is queried. -/
theorem queried_query {h : Handle} {t : Abi.Table} (ht : table? h.graph t.name = .ok t)
    (chain : Transport) (query : Table.Query) :
    Queried h chain t query (h.query chain t.name query) := by
  unfold Handle.query
  cases hs : h.graph.struct? t.rowStruct with
  | none =>
    have hrow : h.rowStruct? t.name = .error (.reference .rowType t.rowStruct) := by
      simp [Handle.rowStruct?, ht, bind, Except.bind, hs]
    rw [hrow]
    exact .untyped hs
  | some s =>
    have hrow : h.rowStruct? t.name = .ok s := by
      simp [Handle.rowStruct?, ht, bind, Except.bind, hs, pure, Except.pure]
    rw [hrow]
    dsimp only
    cases hr : chain.rows { code := h.account.name, table := t.name, query } with
    | error words => exact .failed hs hr
    | ok page => exact .answered hs hr

/-- What a handle does about an ask: what the ask means, or nothing where it means nothing. -/
inductive Course (h : Handle) (chain : Transport) (ask : Ask) : Exchange Answer → Prop where
  | transact {a : Action} {arguments : Arguments} {options : Options} {e : Exchange Json}
    (hm : ask.Means h.graph (.transact a arguments options))
    (he : Invoked h chain a arguments options e) : Course h chain ask (e.map .json)
  | read {t : Abi.Table} {query : Table.Query} {view : Table.Page Table.Row → Answer}
    {e : Exchange (Table.Page Table.Row)} (hm : ask.Means h.graph (.read t query))
    (he : Queried h chain t query e) : Course h chain ask (e.map view)
  | nothing {fault : CallFault} (hm : ∀ plan, ¬ ask.Means h.graph plan)
    (hf : fault.IsArity ∨ fault.IsReference) : Course h chain ask (.silent h (.error fault))

/-- Mapping the answer of an exchange twice is mapping it once. -/
theorem Exchange.map_map {α β γ : Type} (f : α → β) (k : β → γ) (e : Exchange α) :
    (e.map f).map k = e.map (k ∘ f) := by
  unfold Exchange.map
  cases e.outcome with
  | error fault => rfl
  | ok a => rfl

/-- An exchange without an answer is the same in every view. -/
theorem Exchange.map_silent_error {α β : Type} (f : α → β) (h : Handle) (fault : CallFault) :
    (Exchange.silent h (.error fault)).map f = .silent h (.error fault) := rfl

/-- An action that is not found is unknown. -/
theorem isReference_of_action? {g : Graph} {name : String} {fault : CallFault}
    (h : action? g name = .error fault) : fault.IsReference := by
  unfold action? at h
  split at h
  · simp at h
  · cases h
    trivial

/-- A table that is not found is unknown. -/
theorem isReference_of_table? {g : Graph} {name : String} {fault : CallFault}
    (h : table? g name = .error fault) : fault.IsReference := by
  unfold table? at h
  split at h
  · simp at h
  · cases h
    trivial

/-- A method that is not found is unknown. -/
theorem isReference_of_method? {g : Graph} {name : String} {fault : CallFault}
    (h : method? g name = .error fault) : fault.IsReference := by
  have hd := dispatched_method? g name
  rw [h] at hd
  cases hd with
  | unknown _ _ _ => trivial

/-- Arguments of an accessor are refused for their shape. -/
theorem isArity_of_tableOptions {name : String} {arguments : Arguments} {fault : CallFault}
    (h : Handle.tableOptions name arguments = .error fault) : fault.IsArity := by
  unfold Handle.tableOptions at h
  dsimp only at h
  split at h
  · split at h
    · simp at h
    · cases h
      trivial
  · split at h
    · cases h
      trivial
    · split at h
      · split at h
        · simp at h
        · cases h
          trivial
      · simp at h

section Courses

variable (h : Handle) (chain : Transport)

/-- A handle calls the action that it is asked for. -/
theorem course_invoke (name : String) (arguments : Arguments) (options : Options) :
    Course h chain (.invoke name arguments options)
      ((h.invoke chain name arguments options).map .json) := by
  cases ha : action? h.graph name with
  | ok a =>
    obtain ⟨-, rfl⟩ := of_lastNamed? (action?_eq_ok_iff.1 ha)
    exact .transact (.action ha) (invoked_invoke ha chain arguments options)
  | error fault =>
    have hsilent : h.invoke chain name arguments options = .silent h (.error fault) := by
      simp only [Handle.invoke, Handle.prepare, ha]
      rfl
    rw [hsilent, Exchange.map_silent_error]
    refine .nothing (fun plan hm => ?_) (.inr (isReference_of_action? ha))
    cases hm with | action ha' => cases ha.symm.trans ha'

/-- A handle reads the table that it is asked for. -/
theorem course_query (name : String) (query : Table.Query) :
    Course h chain (.query name query) ((h.query chain name query).map .page) := by
  cases ht : table? h.graph name with
  | ok t =>
    obtain ⟨-, rfl⟩ := of_lastNamed? (table?_eq_ok_iff.1 ht)
    exact .read (.table ht) (queried_query ht chain query)
  | error fault =>
    have hsilent : h.query chain name query = .silent h (.error fault) := by
      simp only [Handle.query, Handle.rowStruct?, ht]
      rfl
    rw [hsilent, Exchange.map_silent_error]
    refine .nothing (fun plan hm => ?_) (.inr (isReference_of_table? ht))
    cases hm with | table ht' => cases ht.symm.trans ht'

/-- A handle does what the method stands for that it is asked for. -/
theorem course_call (name : String) (arguments : Arguments) (options : Options) :
    Course h chain (.call name arguments options)
      ((h.call chain name arguments options).map .json) := by
  unfold Handle.call
  cases hmethod : method? h.graph name with
  | error fault =>
    refine .nothing (fun plan hm => ?_) (.inr (isReference_of_method? hmethod))
    cases hm with
    | method hm' | objectMethod hm' | accessor hm' _ => cases hmethod.symm.trans hm'
  | ok method =>
    cases method with
    | action a =>
      -- The entry is looked up once more under its own name, and is the same.
      have ha := action?_of_method? (.inl hmethod)
      exact .transact (.method hmethod) (invoked_invoke ha chain arguments options)
    | objectParams a =>
      cases arguments with
      | object entries =>
        have ha := action?_of_method? (.inr hmethod)
        exact .transact (.objectMethod hmethod) (invoked_invoke ha chain _ options)
      | positional slots =>
        -- An object method means nothing where its arguments are in order.
        refine .nothing (fun plan hm => ?_) (.inl trivial)
        cases hm with
        | method hm' | accessor hm' _ => cases hmethod.symm.trans hm'
    | table t =>
      dsimp only
      cases ho : Handle.tableOptions name arguments with
      | error fault =>
        refine .nothing (fun plan hm => ?_) (.inl (isArity_of_tableOptions ho))
        cases hm with
        | method hm' | objectMethod hm' => cases hmethod.symm.trans hm'
        | accessor hm' ho' => cases ho.symm.trans ho'
      | ok query =>
        dsimp only
        rw [Exchange.map_map]
        have ht := table?_of_method? hmethod
        exact .read (.accessor hmethod ho) (queried_query ht chain query)

/-- A handle does what it is asked for. -/
theorem course_take (step : Step) : Course h step.chain step.ask (h.take step) := by
  obtain ⟨ask, chain⟩ := step
  cases ask with
  | call method arguments options => exact course_call h chain method arguments options
  | invoke action arguments options => exact course_invoke h chain action arguments options
  | query table query => exact course_query h chain table query

end Courses

end Call

end ContractBinding
