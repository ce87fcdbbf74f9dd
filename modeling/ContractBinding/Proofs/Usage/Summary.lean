import ContractBinding.Proofs.Abi.Names
import ContractBinding.Proofs.Usage.Middle
import Mathlib.Algebra.BigOperators.Group.List.Lemmas

/-!
# Summaries of logged samples

A ledger into which samples have been logged holds under every action the samples of that action in
the order in which they came, and no other names. Its summary has one entry for each of them in name
order, and does not depend on the order of the samples: calls that log the same samples for every
action come to the same summary.
-/

namespace ContractBinding.Usage

open Decimal (Binary64)

/-- The samples that calls log for an action, in their order. -/
def samplesOf (action : String) (calls : List (String × Nat)) : List Nat :=
  (calls.filter fun call => call.1 = action).map Prod.snd

/-- Calls in another order log the same samples. -/
theorem perm_samplesOf (action : String) {calls others : List (String × Nat)}
    (h : calls.Perm others) : (samplesOf action calls).Perm (samplesOf action others) :=
  (h.filter _).map _

namespace Ledger

variable {l l' : Ledger} {action : String} {calls : List (String × Nat)}

/-- The ledger after calls that log a sample for an action each. -/
def logAll (l : Ledger) (calls : List (String × Nat)) : Ledger :=
  calls.foldl (fun l call => l.log call.1 call.2) l

/-- The names of the actions that have samples. -/
def actions (l : Ledger) : List String := l.samples.map Prod.fst

/-- The names increase strictly, and there is a sample under each. -/
structure Orderly (l : Ledger) : Prop where
  increasing : Keyed.Sorted l.samples
  sampled : ∀ action, l.samples.lookup action ≠ some []

/-- A new ledger is orderly. -/
theorem orderly_empty : ({} : Ledger).Orderly := ⟨Keyed.sorted_nil, fun _ => nofun⟩

/-- Logging a sample leaves a ledger orderly. -/
theorem Orderly.log (h : l.Orderly) (action : String) (sample : Nat) :
    (l.log action sample).Orderly := by
  refine ⟨Keyed.sorted_insert action _ h.increasing, fun other => ?_⟩
  by_cases ho : other = action
  · subst ho
    rw [Ledger.log, Keyed.lookup_insert_self]
    simp
  · rw [Ledger.log, Keyed.lookup_insert_of_ne ho]
    exact h.sampled other

/-- Logging samples leaves a ledger orderly. -/
theorem Orderly.logAll (h : l.Orderly) (calls : List (String × Nat)) :
    (l.logAll calls).Orderly := by
  induction calls generalizing l with
  | nil => exact h
  | cons call rest ih => exact ih (h.log call.1 call.2)

/-- After calls, the samples of an action are those that the calls have logged for it, behind the
earlier ones. -/
theorem of_logAll (l : Ledger) (calls : List (String × Nat)) (action : String) :
    (l.logAll calls).of action = l.of action ++ samplesOf action calls := by
  induction calls generalizing l with
  | nil => exact (List.append_nil _).symm
  | cons call rest ih =>
    obtain ⟨name, sample⟩ := call
    have hrest : (l.logAll ((name, sample) :: rest)).of action =
        (l.log name sample).of action ++ samplesOf action rest := ih (l.log name sample)
    rw [hrest]
    by_cases hn : name = action
    · subst hn
      simp [of_log_self, samplesOf]
    · simp [of_log_of_ne (Ne.symm hn), samplesOf, hn]

/-- The actions of an orderly ledger are those that have samples. -/
theorem Orderly.mem_actions_iff (h : l.Orderly) : action ∈ l.actions ↔ l.of action ≠ [] := by
  rw [actions, ← Abi.isSome_lookup_iff, of]
  have hsampled := h.sampled action
  cases hl : l.samples.lookup action with
  | none => simp
  | some samples => simpa [hl] using hsampled

/-- No action of an orderly ledger occurs twice. -/
theorem Orderly.nodup_actions (h : l.Orderly) : l.actions.Nodup := by
  refine List.Pairwise.imp (fun hlt heq => ?_) h.increasing
  subst heq
  exact String.lt_irrefl _ hlt

/-- An orderly ledger has under each of its actions the samples of that action. -/
theorem Orderly.samples_eq (h : l.Orderly) :
    l.samples = l.actions.map fun action => (action, l.of action) := by
  rw [actions, List.map_map]
  conv_lhs => rw [← List.map_id l.samples]
  refine List.map_congr_left fun e he => ?_
  have hfound := (Abi.lookup_eq_some_iff_mem h.nodup_actions).2 he
  simp [of, hfound]

/-- The summary of an orderly ledger sums up the samples of each action. -/
theorem Orderly.summary_eq (h : l.Orderly) : l.summary = l.actions.map fun action =>
    ⟨action, (l.of action).length, median (l.of action), mean (l.of action)⟩ := by
  rw [summary, h.samples_eq, List.map_map]
  rfl

/-- Ledgers that have the same actions have them in the same order. -/
theorem Orderly.actions_eq (h : l.Orderly) (h' : l'.Orderly)
    (hsame : ∀ action, action ∈ l.actions ↔ action ∈ l'.actions) : l.actions = l'.actions := by
  have hperm := (List.perm_ext_iff_of_nodup h.nodup_actions h'.nodup_actions).2 hsame
  exact hperm.eq_of_pairwise (fun _ _ _ _ hlt hgt => absurd hgt (String.lt_asymm hlt)) h.increasing
    h'.increasing

/-- Ledgers that have the same samples for every action, each in an order of its own, have the same
summary. -/
theorem Orderly.summary_eq_of_perm (h : l.Orderly) (h' : l'.Orderly)
    (hperm : ∀ action, (l.of action).Perm (l'.of action)) : l.summary = l'.summary := by
  have hactions : l.actions = l'.actions := by
    refine h.actions_eq h' fun action => ?_
    rw [h.mem_actions_iff, h'.mem_actions_iff, ← List.length_pos_iff, ← List.length_pos_iff,
      (hperm action).length_eq]
  rw [h.summary_eq, h'.summary_eq, hactions]
  refine List.map_congr_left fun action _ => ?_
  rw [(hperm action).length_eq, median_eq_of_perm (hperm action), mean_eq_of_perm (hperm action)]

/-! ### Ledgers of calls -/

/-- The ledger of calls that begin with no samples. -/
def ofCalls (calls : List (String × Nat)) : Ledger := ({} : Ledger).logAll calls

theorem orderly_ofCalls (calls : List (String × Nat)) : (ofCalls calls).Orderly :=
  orderly_empty.logAll calls

/-- The samples of an action are those that were logged for it. -/
theorem of_ofCalls (calls : List (String × Nat)) (action : String) :
    (ofCalls calls).of action = samplesOf action calls :=
  of_logAll {} calls action

/-- The actions are those for which a sample was logged. -/
theorem mem_actions_ofCalls_iff :
    action ∈ (ofCalls calls).actions ↔ action ∈ calls.map Prod.fst := by
  rw [(orderly_ofCalls calls).mem_actions_iff, of_ofCalls]
  simp [samplesOf]

/-- There are as many samples as there are calls. -/
theorem sum_length_samplesOf (calls : List (String × Nat)) :
    ((ofCalls calls).actions.map fun action => (samplesOf action calls).length).sum =
      calls.length := by
  have hperm : (ofCalls calls).actions.Perm (calls.map Prod.fst).dedup :=
    (List.perm_ext_iff_of_nodup (orderly_ofCalls calls).nodup_actions (List.nodup_dedup _)).2
      fun action => by rw [mem_actions_ofCalls_iff, List.mem_dedup]
  have hcount (action : String) :
      (samplesOf action calls).length = (calls.map Prod.fst).count action := by
    rw [samplesOf, List.length_map, ← List.countP_eq_length_filter, List.count, List.countP_map]
    rfl
  simp only [hcount]
  rw [(hperm.map _).sum_nat, List.sum_map_count_dedup_eq_length, List.length_map]

end Ledger

/-- What a summary says of calls: one entry for every action with a sample, in name order, with the
number of its samples, their median and their average. Medians and averages are converted from
whole numbers. -/
structure SumsUp (calls : List (String × Nat)) (summary : List Summary) : Prop where
  increasing : (summary.map Summary.action).Pairwise (· < ·)
  logged : ∀ action, action ∈ summary.map Summary.action ↔ action ∈ calls.map Prod.fst
  total : (summary.map Summary.samples).sum = calls.length
  counted : ∀ s ∈ summary, s.samples = (samplesOf s.action calls).length
  median : ∀ s ∈ summary, ∃ mid, IsMiddle (samplesOf s.action calls) mid ∧
    s.median = (Binary64.ofInt mid.sum).div (Binary64.ofInt mid.length)
  average : ∀ s ∈ summary, s.average =
    (Binary64.ofInt (samplesOf s.action calls).sum).div
      (Binary64.ofInt (samplesOf s.action calls).length)

/-- A ledger sums up the calls that it has kept. -/
theorem sumsUp_summary (calls : List (String × Nat)) :
    SumsUp calls (Ledger.ofCalls calls).summary := by
  have hordered := Ledger.orderly_ofCalls calls
  have hsummary := hordered.summary_eq
  simp only [Ledger.of_ofCalls] at hsummary
  have hactions : (Ledger.ofCalls calls).summary.map Summary.action =
      (Ledger.ofCalls calls).actions := by
    rw [hsummary, List.map_map]
    exact List.map_id _
  have hentry : ∀ s ∈ (Ledger.ofCalls calls).summary, samplesOf s.action calls ≠ [] ∧
      s = ⟨s.action, (samplesOf s.action calls).length, Usage.median (samplesOf s.action calls),
        mean (samplesOf s.action calls)⟩ := by
    intro s hs
    rw [hsummary] at hs
    obtain ⟨action, hm, rfl⟩ := List.mem_map.1 hs
    refine ⟨?_, rfl⟩
    rw [hordered.mem_actions_iff, Ledger.of_ofCalls] at hm
    exact hm
  constructor
  case increasing =>
    rw [hactions]
    exact hordered.increasing
  case logged =>
    intro action
    rw [hactions, Ledger.mem_actions_ofCalls_iff]
  case total =>
    rw [hsummary, List.map_map]
    exact Ledger.sum_length_samplesOf calls
  case counted =>
    intro s hs
    exact congrArg Summary.samples (hentry s hs).2
  case median =>
    intro s hs
    obtain ⟨hne, heq⟩ := hentry s hs
    rw [congrArg Summary.median heq]
    exact exists_middle hne
  case average =>
    intro s hs
    obtain ⟨hne, heq⟩ := hentry s hs
    rw [congrArg Summary.average heq]
    exact mean_eq hne

/-- Calls that log the same samples for every action, in whatever order, are summed up alike, in
numbers and in text, and rightly. -/
theorem summary_of_same_samples {calls others : List (String × Nat)}
    (h : ∀ action, (samplesOf action calls).Perm (samplesOf action others)) :
    (Ledger.ofCalls calls).summary = (Ledger.ofCalls others).summary ∧
      (Ledger.ofCalls calls).text = (Ledger.ofCalls others).text ∧
      SumsUp calls (Ledger.ofCalls calls).summary := by
  have hsummary : (Ledger.ofCalls calls).summary = (Ledger.ofCalls others).summary := by
    refine (Ledger.orderly_ofCalls calls).summary_eq_of_perm (Ledger.orderly_ofCalls others) ?_
    intro action
    rw [Ledger.of_ofCalls, Ledger.of_ofCalls]
    exact h action
  refine ⟨hsummary, ?_, sumsUp_summary calls⟩
  rw [Ledger.text, Ledger.text, hsummary]

/-- Transfers, with an issue between them. -/
def transfers : List (String × Nat) :=
  [("token::transfer", 300), ("token::transfer", 100), ("token::issue", 50),
    ("token::transfer", 200), ("token::transfer", 400)]

/-- The issue came first, and the transfers in another order. -/
def transfersLater : List (String × Nat) :=
  [("token::issue", 50), ("token::transfer", 400), ("token::transfer", 100),
    ("token::transfer", 300), ("token::transfer", 200)]

theorem transfers_summary :
    (∀ action, (samplesOf action transfers).Perm (samplesOf action transfersLater)) ∧
      (Ledger.ofCalls transfers).summary = (Ledger.ofCalls transfersLater).summary ∧
      (Ledger.ofCalls transfers).text = (Ledger.ofCalls transfersLater).text ∧
      SumsUp transfers (Ledger.ofCalls transfers).summary ∧
      (Ledger.ofCalls transfers).summary =
        [⟨"token::issue", 1, Binary64.ofInt 50, Binary64.ofInt 50⟩,
          ⟨"token::transfer", 4, Binary64.ofInt 250, Binary64.ofInt 250⟩] := by
  have hsame : ∀ action, (samplesOf action transfers).Perm (samplesOf action transfersLater) :=
    fun action => perm_samplesOf action (by decide)
  obtain ⟨hsummary, htext, hsums⟩ := summary_of_same_samples hsame
  refine ⟨hsame, hsummary, htext, hsums, ?_⟩
  have hentries : (Ledger.ofCalls transfers).summary =
      [⟨"token::issue", 1, median [50], mean [50]⟩,
        ⟨"token::transfer", 4, median [300, 100, 200, 400], mean [300, 100, 200, 400]⟩] := rfl
  have hissue : middle [50] = [50] := by
    rw [middle, List.mergeSort_singleton]
    rfl
  have hsorted : [300, 100, 200, 400].mergeSort = [100, 200, 300, 400] :=
    (mergeSort_eq_of_perm (by decide)).trans (List.mergeSort_of_pairwise (by decide))
  have htransfer : middle [300, 100, 200, 400] = [200, 300] := by
    rw [middle, hsorted]
    rfl
  rw [hentries, median, median, hissue, htransfer]
  decide +kernel

end ContractBinding.Usage
