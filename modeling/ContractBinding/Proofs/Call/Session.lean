import ContractBinding.Proofs.Call.Sending

/-!
# Sessions with a contract

A session asks a handle for one thing after the other. Whatever is asked and whatever the chain
answers, the account and the graph of the handle stay as they are, so what a step sends depends on
that step alone. Only the ledger grows: by the processor times of the calls with arguments in order
that the chain took.
-/

namespace ContractBinding.Call

open Abi (Action Graph)

/-- The exchanges of a session. Every step is taken with the handle that the one before it left. -/
def Handle.session (h : Handle) : List Step → List (Exchange Answer)
  | [] => []
  | step :: rest => h.take step :: (h.take step).handle.session rest

/-- The handle after a session. -/
def Handle.after (h : Handle) : List Step → Handle
  | [] => h
  | step :: rest => (h.take step).handle.after rest

/-- What is prepared for an action names the action. -/
theorem name_of_prepare {g : Graph} {account : Account} {a : Action} {arguments : Arguments}
    {options : Options} {call : Prepared}
    (h : prepare g account a arguments options = .ok call) : call.action.name = a.name := by
  obtain ⟨data, -, hcall⟩ := Outcome.bind_eq_ok_iff.1 h
  rw [Outcome.pure_eq_ok_iff] at hcall
  subst hcall
  rfl

/-- A receipt states a processor time: a whole number of 64 bits. -/
def States (receipt : Json) (time : Nat) : Prop :=
  receipt.getPath? ["processed", "receipt", "cpu_usage_us"] = some (.int time) ∧ time < UInt64.size

/-- The processor time of a receipt is the one that it states. -/
theorem processorTime?_eq_some_iff {receipt : Json} {time : Nat} :
    Handle.processorTime? receipt = some time ↔ States receipt time := by
  have hnatural (value : Json) : value.natural? = some time ↔ value = .int time := by
    cases value with
    | int n =>
      show (if 0 ≤ n then some n.toNat else none) = some time ↔ _
      rw [Json.int.injEq]
      by_cases hn : 0 ≤ n
      · rw [if_pos hn, Option.some.injEq]
        omega
      · rw [if_neg hn]
        exact iff_of_false (by simp) (by omega)
    | _ => simp [Json.natural?]
  rw [Handle.processorTime?, Option.filter_eq_some_iff, Option.bind_eq_some_iff, States]
  simp [hnatural]

/-- The arguments in an ask. -/
def Ask.arguments? : Ask → Option Arguments
  | .call _ arguments _ => some arguments
  | .invoke _ arguments _ => some arguments
  | .query _ _ => none

/-- An ask for a call passes its own arguments on. -/
theorem Ask.Means.arguments? {g : Graph} {ask : Ask} {a : Action} {arguments : Arguments}
    {options : Options} (hm : ask.Means g (.transact a arguments options)) :
    ask.arguments? = some arguments := by
  cases hm with
  | action _ => rfl
  | method _ => rfl
  | objectMethod _ => rfl

/-- The receipt of a call of an action with its arguments in order, if a step was one and the chain
took it. -/
def receipt? (action : String) (step : Step) (e : Exchange Answer) : Option Json :=
  match step.ask.arguments?, e.sent with
  | some (.positional _), [.transaction call] =>
    if call.action.name = action then (step.chain.transact call).toOption else none
  | _, _ => none

/-- The receipts of the calls of an action with their arguments in order, in the order of the
steps. -/
def Handle.receipts (h : Handle) (action : String) (steps : List Step) : List Json :=
  (steps.zip (h.session steps)).filterMap fun (step, e) => receipt? action step e

/-- What a step does to the handle: nothing, or it keeps the receipt of one call. -/
inductive Kept (h : Handle) (step : Step) (e : Exchange Answer) : Prop where
  | nothing (hh : e.handle = h) (hr : ∀ action, receipt? action step e = none)
  | receipt {name : String} {receipt : Json} (hh : e.handle = h.record name receipt)
    (hr : ∀ action, receipt? action step e = if name = action then some receipt else none)

/-- Every step keeps at most one receipt. -/
theorem kept_take (h : Handle) (step : Step) : Kept h step (h.take step) := by
  have hcourse := course_take h step
  generalize h.take step = e at hcourse
  cases hcourse with
  | nothing hm _ => exact .nothing rfl fun action => by simp [receipt?, Exchange.silent]
  | @transact a arguments options e hm he =>
    cases he with
    | refused hp =>
      exact .nothing rfl fun action => by simp [receipt?, Exchange.map, Exchange.silent]
    | failed hp ht =>
      refine .nothing rfl fun action => ?_
      cases arguments with
      | positional slots =>
        simp [receipt?, Exchange.map, hm.arguments?, ht, Except.toOption]
      | object entries => simp [receipt?, hm.arguments?]
    | taken hp ht =>
      cases arguments with
      | positional slots =>
        refine .receipt rfl fun action => ?_
        simp [receipt?, Exchange.map, hm.arguments?, ht, Except.toOption, name_of_prepare hp]
      | object entries => exact .nothing rfl fun action => by simp [receipt?, hm.arguments?]
  | read hm he =>
    cases he with
    | untyped hs =>
      exact .nothing rfl fun action => by simp [receipt?, Exchange.map, Exchange.silent]
    | failed hs hr => exact .nothing rfl fun action => by simp [receipt?, Exchange.map]
    | answered hs hr => exact .nothing rfl fun action => by simp [receipt?, Exchange.map]

namespace Handle

variable (h : Handle) (name : String) (receipt : Json)

/-- Keeping a receipt changes the ledger at most. -/
theorem record_eq : ∃ ledger, h.record name receipt = { h with ledger } := by
  unfold record
  split
  · exact ⟨_, rfl⟩
  · exact ⟨h.ledger, rfl⟩

/-- A step changes the ledger at most. -/
theorem take_eq (step : Step) : ∃ ledger, (h.take step).handle = { h with ledger } := by
  cases kept_take h step with
  | nothing hh _ => exact ⟨h.ledger, hh⟩
  | receipt hh _ =>
    rw [hh]
    exact h.record_eq _ _

/-- The ledger keeps different actions under different names. -/
theorem ledgerName_injective : Function.Injective h.ledgerName :=
  fun _ _ hab => (String.append_right_inj _).1 hab

end Handle

/-- A ledger has got the times of receipts, each under its action and in their order, and nothing
else. -/
structure Grown (h : Handle) (l l' : Usage.Ledger) (receipts : String → List Json) : Prop where
  action : ∀ action, l'.of (h.ledgerName action) =
    l.of (h.ledgerName action) ++ (receipts action).filterMap Handle.processorTime?
  other : ∀ key, (∀ action, key ≠ h.ledgerName action) → l'.of key = l.of key

namespace Grown

variable {h : Handle} {l l' l'' : Usage.Ledger} {receipts more : String → List Json}

theorem refl (h : Handle) (l : Usage.Ledger) : Grown h l l fun _ => [] where
  action := by simp
  other _ _ := rfl

/-- What is kept later stands behind what was kept before. -/
theorem trans (hl : Grown h l l' receipts) (hl' : Grown h l' l'' more) :
    Grown h l l'' fun action => receipts action ++ more action where
  action action := by
    rw [hl'.action, hl.action, List.filterMap_append, List.append_assoc]
  other key hkey := (hl'.other key hkey).trans (hl.other key hkey)

/-- A receipt that is kept adds its time, if it states one. -/
theorem exists_of_record (hl : h.ledger = some l) (name : String) (receipt : Json) :
    ∃ l', (h.record name receipt).ledger = some l' ∧
      Grown h l l' fun action => (if name = action then some receipt else none).toList := by
  unfold Handle.record
  rw [hl]
  cases htime : Handle.processorTime? receipt with
  | none =>
    refine ⟨l, hl, fun action => ?_, fun _ _ => rfl⟩
    by_cases hname : name = action
    · simp [hname, htime]
    · simp [hname]
  | some time =>
    refine ⟨_, rfl, fun action => ?_, fun key hkey => ?_⟩
    · by_cases hname : name = action
      · subst hname
        simp [htime, Usage.Ledger.of_log_self]
      · have hne : h.ledgerName action ≠ h.ledgerName name :=
          fun he => hname (h.ledgerName_injective he).symm
        simp [hname, Usage.Ledger.of_log_of_ne hne]
    · exact Usage.Ledger.of_log_of_ne (hkey name) l time

/-- A step adds the time of its own receipt. -/
theorem exists_of_take (hl : h.ledger = some l) (step : Step) :
    ∃ l', (h.take step).handle.ledger = some l' ∧
      Grown h l l' fun action => (receipt? action step (h.take step)).toList := by
  cases kept_take h step with
  | nothing hh hr =>
    refine ⟨l, by rw [hh, hl], ?_⟩
    simp only [hr, Option.toList_none]
    exact refl h l
  | @receipt name receipt hh hr =>
    simp only [hh, hr]
    exact exists_of_record hl name receipt

/-- A session adds the times of its receipts. -/
theorem exists_of_after (hl : h.ledger = some l) (steps : List Step) :
    ∃ l', (h.after steps).ledger = some l' ∧
      Grown h l l' fun action => h.receipts action steps := by
  induction steps generalizing h l with
  | nil => exact ⟨l, hl, refl h l⟩
  | cons step rest ih =>
    obtain ⟨l₁, hl₁, hfirst⟩ := exists_of_take hl step
    obtain ⟨l₂, hl₂, hrest⟩ := ih hl₁
    obtain ⟨ledger, hh⟩ := h.take_eq step
    -- The rest goes on with another handle, which keeps its samples under the same names.
    have hsame : Grown h l₁ l₂ fun action => (h.take step).handle.receipts action rest := by
      have hname : (h.take step).handle.ledgerName = h.ledgerName := by rw [hh]; rfl
      exact ⟨fun action => hname ▸ hrest.action action, fun key hkey =>
        hrest.other key fun action => hname ▸ hkey action⟩
    refine ⟨l₂, hl₂, ?_⟩
    have hall := hfirst.trans hsame
    have hreceipts (action : String) : h.receipts action (step :: rest) =
        (receipt? action step (h.take step)).toList ++
          (h.take step).handle.receipts action rest := by
      unfold Handle.receipts
      simp only [Handle.session, List.zip_cons_cons, List.filterMap_cons]
      cases receipt? action step (h.take step) with
      | none => rfl
      | some receipt => rfl
    simp only [hreceipts]
    exact hall

end Grown

/-- Every step of a session is in order, as if it were the first. -/
theorem orderly_session (h : Handle) (steps : List Step) :
    List.Forall₂ (Orderly h.account h.graph) steps (h.session steps) := by
  induction steps generalizing h with
  | nil => exact .nil
  | cons step rest ih =>
    -- The handle that is left differs in its ledger only, and being in order does not read that.
    obtain ⟨ledger, hh⟩ := h.take_eq step
    have hrest := ih (h.take step).handle
    refine .cons (orderly_take h step) ?_
    rw [hh] at hrest ⊢
    exact hrest

/-- What holds of a session whatever is asked and whatever the chain answers: every step sends what
its own ask makes and nothing else, and the ledger has got the times that were stated for calls
with their arguments in order, action by action. -/
structure Accounted (h : Handle) (l : Usage.Ledger) (steps : List Step) : Prop where
  orderly : List.Forall₂ (Orderly h.account h.graph) steps (h.session steps)
  grown : ∃ l', (h.after steps).ledger = some l' ∧
    Grown h l l' fun action => h.receipts action steps
  time_iff : ∀ receipt time, Handle.processorTime? receipt = some time ↔ States receipt time

/-- Every session of a handle with a ledger is accounted for. -/
theorem session_accounted {h : Handle} {l : Usage.Ledger} (hl : h.ledger = some l)
    (steps : List Step) : Accounted h l steps where
  orderly := orderly_session h steps
  grown := Grown.exists_of_after hl steps
  time_iff _ _ := processorTime?_eq_some_iff

/-- A handle of the membership contract with an empty ledger. -/
def membershipHandle : Handle :=
  { account := ⟨"dao", none⟩, graph := Abi.membershipGraph, ledger := some {} }

/-- A session in which the membership contract is joined in order, joined with an object, joined
with a receipt that states no time, asked for an unknown method, and asked for rows that are none
of its own. -/
def membershipSession : List Step :=
  let stating (time : Json) : Transport :=
    { transact _ := .ok (.object [("processed", .object [("receipt",
        .object [("cpu_usage_us", time)])])])
      rows _ := .ok { rows := [.object [("on", .array [.int 2])]] } }
  let on : HostValue := .array [.bool true]
  [ ⟨.call "join" (.positional [some on, none]) {}, stating (.int 120)⟩,
    ⟨.call "joinO" (.object [("on", on)]) {}, stating (.int 40)⟩,
    ⟨.invoke "join" (.positional [some on, none]) {}, stating (.int (-1))⟩,
    ⟨.call "leave" (.positional []) {}, stating (.int 7)⟩,
    ⟨.query "members" {}, stating (.int 7)⟩ ]

theorem membershipSession_accounted :
    membershipHandle.ledger = some {} ∧
      Accounted membershipHandle {} membershipSession ∧
      (membershipHandle.session membershipSession).map (fun e => e.sent.length) = [1, 1, 1, 0, 1] ∧
      (membershipHandle.after membershipSession).ledger = some ⟨[("dao::join", [120])]⟩ := by
  refine ⟨rfl, session_accounted rfl membershipSession, ?_, ?_⟩
  · decide +kernel
  · rfl

end ContractBinding.Call
