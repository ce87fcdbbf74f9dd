import ContractBinding.Decimal.Layout
import ContractBinding.Keyed

/-!
# Processor time of actions

A ledger keeps the samples of processor time of every action, in microseconds, and sums them up
by median and average.
-/

namespace ContractBinding.Usage

open Decimal (Binary64)

/-- The samples of every action, under its name. -/
structure Ledger where
  /-- In key order; the samples of an action are in the order in which they came. -/
  samples : List (String × List Nat) := []
  deriving DecidableEq, Repr

/-- The middle of the samples in order. Of an even number of samples the two in the middle count
together. -/
def middle (samples : List Nat) : List Nat :=
  let sorted := samples.mergeSort
  let half := sorted.length / 2
  if sorted.length % 2 = 0 then (sorted.drop (half - 1)).take 2
  else (sorted.drop half).take 1

/-- The sum of some samples over their number, rounded to a binary value: first the sum, then
the quotient. Of no samples it is zero. -/
def mean (samples : List Nat) : Binary64 :=
  let sum : Nat := samples.foldl (· + ·) 0
  if samples.isEmpty then .zero false
  else (Binary64.ofInt sum).div (Binary64.ofInt samples.length)

/-- The middle sample, or the mean of the two in the middle. -/
def median (samples : List Nat) : Binary64 := mean (middle samples)

/-- What a ledger says of an action. -/
structure Summary where
  action : String
  samples : Nat
  median : Binary64
  average : Binary64
  deriving DecidableEq, Repr

/-- One line about an action; its name takes 26 characters. -/
def Summary.text (s : Summary) : String :=
  s.action ++ String.ofList (List.replicate (26 - s.action.length) ' ') ++
    " median: " ++ Decimal.Layout.prose.text s.median ++ " µs average: " ++
    Decimal.Layout.prose.text s.average ++ " µs\n"

namespace Ledger

/-- The samples of an action. -/
def of (l : Ledger) (action : String) : List Nat := (l.samples.lookup action).getD []

/-- Add a sample. -/
def log (l : Ledger) (action : String) (sample : Nat) : Ledger :=
  { samples := Keyed.insert action (l.of action ++ [sample]) l.samples }

/-- The samples of an action after one was added to it. -/
theorem of_log_self (l : Ledger) (action : String) (sample : Nat) :
    (l.log action sample).of action = l.of action ++ [sample] := by
  simp [log, of, Keyed.lookup_insert_self]

/-- The samples of other actions stay. -/
theorem of_log_of_ne {action other : String} (h : other ≠ action) (l : Ledger) (sample : Nat) :
    (l.log action sample).of other = l.of other := by
  simp [log, of, Keyed.lookup_insert_of_ne h]

/-- The summaries of all actions, by name. -/
def summary (l : Ledger) : List Summary :=
  l.samples.map fun (action, samples) =>
    { action, samples := samples.length, median := Usage.median samples, average := mean samples }

/-- The summaries as text. -/
def text (l : Ledger) : String := "Stats:\n" ++ String.join (l.summary.map Summary.text)

end Ledger

end ContractBinding.Usage
