import ContractBinding.Proofs.Call.Plan
import ContractBinding.Proofs.Outcome
import ContractBinding.Proofs.Table.Misreading

/-!
# What a step sends

A step sends the call or the request that its own ask makes, and nothing else. Where the arguments,
a tag or a name in the ask are refused, it sends nothing; a row that cannot be read is refused only
after its request was sent.
-/

namespace ContractBinding

/-- Rows that cannot be read are neither a lack of arguments nor an unknown name. -/
theorem CallFault.IsMisreading.not_refusal {fault : CallFault} (h : fault.IsMisreading) :
    ¬ (fault.IsArity ∨ fault.IsReference) := by
  cases fault with
  | domain place expected found => simp [IsArity, IsReference]
  | discriminant variant tag branches => simp [IsArity, IsReference]
  | arity callee mismatch => simp [IsMisreading, IsDomain, IsDiscriminant] at h
  | reference kind name => simp [IsMisreading, IsDomain, IsDiscriminant] at h
  | transport words => simp [IsMisreading, IsDomain, IsDiscriminant] at h

namespace Call

open Abi (Action Graph)
open Outcome (RefusedBy)

section Preparing

variable {g : Graph} {action : Action}

/-- A field is refused for a lack of arguments or for a tag. -/
theorem refusedBy_fieldEntry (missing : String → Mismatch) (f : Abi.Field)
    (slot : Option HostValue) : RefusedBy (fun fault => fault.IsArity ∨ fault.IsDiscriminant)
      (fieldEntry g action missing f slot) := by
  cases slot with
  | some value =>
    refine RefusedBy.bind (fun fault hf => .inr (isDiscriminant_of_reduce hf)) fun wire => .ok _
  | none =>
    rw [fieldEntry]
    split
    · exact .ok _
    · split
      · exact .ok _
      · exact .error (.inl trivial)

/-- Fields that take their values by name are refused for one of them. -/
theorem refusedBy_takeFields (fields : List Abi.Field) (values : List (String × HostValue)) :
    RefusedBy (fun fault => fault.IsArity ∨ fault.IsDiscriminant)
      (takeFields g action fields values) := by
  induction fields generalizing values with
  | nil => exact .ok _
  | cons f rest ih =>
    exact (refusedBy_fieldEntry _ f _).bind fun entry => (ih _).bind fun taken => .ok _

/-- A call that is not prepared is refused for its arguments or for a tag. -/
theorem refusedBy_prepare (account : Account) (arguments : Arguments) (options : Options) :
    RefusedBy (fun fault => fault.IsArity ∨ fault.IsDiscriminant)
      (prepare g account action arguments options) := by
  have hdata : RefusedBy (fun fault => fault.IsArity ∨ fault.IsDiscriminant)
      (data g action arguments) := by
    cases arguments with
    | positional slots =>
      show RefusedBy _ (positionalData g action slots)
      unfold positionalData
      dsimp only
      split
      · exact .error (.inl trivial)
      · exact (RefusedBy.mapM fun slot _ => refusedBy_fieldEntry _ _ _).bind fun _ => .ok _
    | object values =>
      refine (refusedBy_takeFields action.fields values).bind fun (entries, left) => ?_
      cases left with
      | nil => exact .ok _
      | cons value rest => exact .error (.inl trivial)
  exact hdata.bind fun _ => .ok _

end Preparing

/-- An ask makes a call: the call that its own arguments come to. -/
def Ask.Marshals (account : Account) (g : Graph) (ask : Ask) (call : Prepared) : Prop :=
  ∃ a arguments options, ask.Means g (.transact a arguments options) ∧
    prepare g account a arguments options = .ok call

/-- An ask makes a request for rows of a struct. -/
def Ask.Requests (account : Account) (g : Graph) (ask : Ask) (s : Abi.Struct)
    (request : Table.Request) : Prop :=
  ∃ t query, ask.Means g (.read t query) ∧ g.struct? t.rowStruct = some s ∧
    request = rowRequest account t query

/-- The rows that answer the request of a step cannot be read. -/
def Step.Drifts (account : Account) (g : Graph) (step : Step) (request : Table.Request)
    (fault : CallFault) : Prop :=
  ∃ s page, step.ask.Requests account g s request ∧ step.chain.rows request = .ok page ∧
    Table.coercePage g s request.query.layout page = .error fault

/-- A step sends what its own ask makes and nothing else, and it sends nothing exactly where it is
refused before the chain has answered. -/
structure Orderly (account : Account) (g : Graph) (step : Step) (e : Exchange Answer) : Prop where
  one_message : e.sent.length ≤ 1
  silent : e.sent = [] → ∃ fault, e.outcome = .error fault ∧
    (fault.IsArity ∨ fault.IsDiscriminant ∨ fault.IsReference)
  transaction_iff : ∀ call, e.sent = [.transaction call] ↔ step.ask.Marshals account g call
  request_iff : ∀ request,
    e.sent = [.request request] ↔ ∃ s, step.ask.Requests account g s request
  refused : ∀ fault, e.outcome = .error fault → fault.IsArity ∨ fault.IsReference → e.sent = []
  misread : ∀ fault, e.outcome = .error fault → fault.IsMisreading →
    e.sent = [] ∨ ∃ request, e.sent = [.request request] ∧ step.Drifts account g request fault

section Plans

variable {account : Account} {g : Graph} {ask : Ask}

/-- An ask for a call makes the call that is prepared. -/
theorem marshals_iff {a : Action} {arguments : Arguments} {options : Options} {call : Prepared}
    (hm : ask.Means g (.transact a arguments options)) :
    ask.Marshals account g call ↔ prepare g account a arguments options = .ok call := by
  constructor
  · rintro ⟨_, _, _, hm', hp⟩
    cases hm.unique hm'
    exact hp
  · exact fun hp => ⟨a, arguments, options, hm, hp⟩

/-- An ask for a call makes no request. -/
theorem not_requests {a : Action} {arguments : Arguments} {options : Options} {s : Abi.Struct}
    {request : Table.Request} (hm : ask.Means g (.transact a arguments options)) :
    ¬ ask.Requests account g s request := by
  rintro ⟨_, _, hm', -⟩
  cases hm.unique hm'

/-- An ask for rows makes the request for them. -/
theorem requests_iff {t : Abi.Table} {query : Table.Query} {s : Abi.Struct}
    {request : Table.Request} (hm : ask.Means g (.read t query)) :
    ask.Requests account g s request ↔
      g.struct? t.rowStruct = some s ∧ request = rowRequest account t query := by
  constructor
  · rintro ⟨_, _, hm', hs, hr⟩
    cases hm.unique hm'
    exact ⟨hs, hr⟩
  · exact fun ⟨hs, hr⟩ => ⟨t, query, hm, hs, hr⟩

/-- An ask for rows makes no call. -/
theorem not_marshals {t : Abi.Table} {query : Table.Query} {call : Prepared}
    (hm : ask.Means g (.read t query)) : ¬ ask.Marshals account g call := by
  rintro ⟨_, _, _, hm', -⟩
  cases hm.unique hm'

end Plans

namespace Orderly

variable {account : Account} {g : Graph} {step : Step} {e : Exchange Answer}

/-- A step that sends nothing is in order where its ask makes nothing to send. -/
theorem of_silent {fault : CallFault} (hsent : e.sent = []) (houtcome : e.outcome = .error fault)
    (hfault : fault.IsArity ∨ fault.IsDiscriminant ∨ fault.IsReference)
    (hcalls : ∀ call, ¬ step.ask.Marshals account g call)
    (hrequests : ∀ s request, ¬ step.ask.Requests account g s request) :
    Orderly account g step e where
  one_message := by simp [hsent]
  silent _ := ⟨fault, houtcome, hfault⟩
  transaction_iff call := iff_of_false (by simp [hsent]) (hcalls call)
  request_iff request := iff_of_false (by simp [hsent]) fun ⟨s, h⟩ => hrequests s request h
  refused _ _ _ := hsent
  misread _ _ _ := .inl hsent

/-- A step that sends the message of its ask is in order where the chain refuses it, or answers with
rows that cannot be read, if it is refused at all. -/
theorem of_message {message : Message} (hsent : e.sent = [message])
    (hcalls : ∀ call, step.ask.Marshals account g call ↔ message = .transaction call)
    (hrequests : ∀ request,
      (∃ s, step.ask.Requests account g s request) ↔ message = .request request)
    (herror : ∀ fault, e.outcome = .error fault → (∃ words, fault = .transport words) ∨
      fault.IsMisreading ∧
        ∃ request, message = .request request ∧ step.Drifts account g request fault) :
    Orderly account g step e where
  one_message := by simp [hsent]
  silent he := by simp [hsent] at he
  transaction_iff call := by rw [hcalls, hsent, List.singleton_inj]
  request_iff request := by rw [hrequests, hsent, List.singleton_inj]
  refused fault he hf := by
    obtain ⟨words, rfl⟩ | ⟨hmisread, -⟩ := herror fault he
    · exact absurd hf (by simp [CallFault.IsArity, CallFault.IsReference])
    · exact absurd hf hmisread.not_refusal
  misread fault he hf := by
    obtain ⟨words, rfl⟩ | ⟨-, request, hmessage, hdrift⟩ := herror fault he
    · exact absurd hf
        (by simp [CallFault.IsMisreading, CallFault.IsDomain, CallFault.IsDiscriminant])
    · exact .inr ⟨request, by rw [hsent, hmessage], hdrift⟩

end Orderly

section Courses

variable {h : Handle} {step : Step}

/-- A step whose ask means a call is in order, whatever comes of the call. -/
theorem Invoked.orderly {a : Action} {arguments : Arguments} {options : Options}
    {e : Exchange Json} (hm : step.ask.Means h.graph (.transact a arguments options))
    (he : Invoked h step.chain a arguments options e) :
    Orderly h.account h.graph step (e.map .json) := by
  have hrequests (s : Abi.Struct) (request : Table.Request) :
      ¬ step.ask.Requests h.account h.graph s request := not_requests hm
  have hnone (call : Prepared) (request : Table.Request) :
      (∃ s, step.ask.Requests h.account h.graph s request) ↔
        Message.transaction call = .request request :=
    iff_of_false (fun ⟨s, hrequest⟩ => hrequests s request hrequest) (by simp)
  have hcalls {call : Prepared}
      (hp : prepare h.graph h.account a arguments options = .ok call) (other : Prepared) :
      step.ask.Marshals h.account h.graph other ↔
        Message.transaction call = .transaction other := by
    rw [marshals_iff hm, hp, Except.ok.injEq, Message.transaction.injEq]
  cases he with
  | refused hp =>
    have hfault := refusedBy_prepare h.account arguments options _ hp
    refine .of_silent rfl rfl (hfault.imp_right .inl) (fun call hcall => ?_) hrequests
    cases hp.symm.trans ((marshals_iff hm).1 hcall)
  | @failed call words hp ht =>
    refine .of_message rfl (hcalls hp) (hnone call) fun fault he => .inl ?_
    cases he
    exact ⟨words, rfl⟩
  | @taken call receipt hp ht =>
    exact .of_message rfl (hcalls hp) (hnone call) fun fault he => nomatch he

/-- A step whose ask means a reading is in order, whatever comes of the request. -/
theorem Queried.orderly {t : Abi.Table} {query : Table.Query}
    {view : Table.Page Table.Row → Answer} {e : Exchange (Table.Page Table.Row)}
    (hm : step.ask.Means h.graph (.read t query)) (he : Queried h step.chain t query e) :
    Orderly h.account h.graph step (e.map view) := by
  have hcalls (message : Table.Request) (call : Prepared) :
      step.ask.Marshals h.account h.graph call ↔ Message.request message = .transaction call :=
    iff_of_false (not_marshals hm) (by simp)
  have hrequests {s : Abi.Struct} (hs : h.graph.struct? t.rowStruct = some s)
      (request : Table.Request) : (∃ s, step.ask.Requests h.account h.graph s request) ↔
        Message.request (rowRequest h.account t query) = .request request := by
    simp only [requests_iff hm, hs, exists_and_right, Message.request.injEq]
    simp [eq_comm]
  cases he with
  | untyped hs =>
    refine .of_silent rfl rfl (.inr (.inr trivial)) (fun _ => not_marshals hm)
      fun s request hrequest => ?_
    cases hs.symm.trans ((requests_iff hm).1 hrequest).1
  | @failed s words hs hr =>
    refine .of_message rfl (hcalls _) (hrequests hs) fun fault he => .inl ?_
    cases he
    exact ⟨words, rfl⟩
  | @answered s page hs hr =>
    refine .of_message rfl (hcalls _) (hrequests hs) fun fault he => .inr ?_
    -- The only fault after a request other than the chain's own lies in the rows.
    have hread : Table.coercePage h.graph s query.layout page = .error fault := by
      cases hp : Table.coercePage h.graph s query.layout page with
      | ok rows => simp [Exchange.map, hp, Except.map] at he
      | error other => simpa [Exchange.map, hp, Except.map] using he
    refine ⟨Table.isMisreading_of_coercePage hread, _, rfl, s, page, ?_, hr, hread⟩
    exact (requests_iff hm).2 ⟨hs, rfl⟩

/-- Every step is in order. -/
theorem orderly_take (h : Handle) (step : Step) :
    Orderly h.account h.graph step (h.take step) := by
  have hcourse := course_take h step
  generalize h.take step = e at hcourse
  cases hcourse with
  | nothing hm hf =>
    refine .of_silent rfl rfl (hf.imp_right .inr) ?_ ?_
    · exact fun call ⟨_, _, _, hplan, _⟩ => hm _ hplan
    · exact fun s request ⟨_, _, hplan, _⟩ => hm _ hplan
  | transact hm he => exact he.orderly hm
  | read hm he => exact he.orderly hm

end Courses

end Call

end ContractBinding
