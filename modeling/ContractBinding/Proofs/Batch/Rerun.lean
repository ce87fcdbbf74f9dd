import ContractBinding.Proofs.Batch.Outputs

/-!
# Running a batch again

A batch that went well settles all its jobs. If it has neither written over what it reads nor put a
draft there, the next batch, of this process or another one, selects the same files and finds every
output as it should be.
-/

namespace ContractBinding.Batch

open Command (Fault Fine Job Outcome)
open Disk (FilePath Place Workspace)

variable {c : Config} {w w' : Workspace} {selected : List Selected} {report : Report}

/-- The entries of outputs that are found unchanged tell the same as those of fine outcomes, apart
from the status. -/
theorem entries_of_unchanged (c : Config) (selected : List Selected)
    {results : List (Except Fault Outcome)} (hlength : results.length = selected.length)
    (hfine : ∀ result ∈ results, Fine result) :
    List.zipWith (entryOf c) selected (selected.map fun _ => .ok .unchanged) =
      (List.zipWith (entryOf c) selected results).map fun e => { e with status := .unchanged } := by
  induction selected generalizing results with
  | nil => rfl
  | cons s rest ih =>
    cases results with
    | nil => simp at hlength
    | cons result results =>
      rw [List.forall_mem_cons] at hfine
      simp only [List.map_cons, List.zipWith_cons_cons]
      rw [ih (by simpa using hlength) hfine.2]
      rcases hfine.1 with rfl | rfl <;> rfl

/-- Different outputs are in different places. -/
theorem pairwise_place_outputPath (hw : w.WellFormed) (h : c.selection w = .ok selected)
    (hdistinct : selected.Pairwise fun a b => c.outputPath a.names ≠ c.outputPath b.names) :
    (selected.map c.job).Pairwise fun a b => a.out.place w.here ≠ b.out.place w.here := by
  refine List.pairwise_map.2 ((hdistinct.and (strictly_sorted_selection hw h)).imp_of_mem ?_)
  intro a b ha hb hab
  have hne : a ≠ b := by
    rintro rfl
    exact lt_irrefl _ hab.2
  exact fun hplace => hab.1 ((outputPath_eq_iff (isName_of_mem_selection hw h ha)
    (names_ne_nil hw h ha hb hne) (isName_of_mem_selection hw h hb)
    (names_ne_nil hw h hb ha hne.symm) c.root w.here).2 hplace)

theorem selection_seenBy (c : Config) (w : Workspace) (process : UInt32) (drafts : UInt64) :
    c.selection (w.seenBy process drafts) = c.selection w := by
  rw [selection_eq, selection_eq]
  rfl

/-- Two files in the root that generate. -/
def generating : Workspace := .ofTexts [("a.abi", "{}"), ("b.abi", "{}")]

theorem selection_generating : Config.ofRoot.selection generating = .ok twoFiles := by
  refine selection_eq_ok_iff.2 ⟨_, _, rfl, rfl, rfl, ?_⟩
  rw [select, List.mergeSort_of_pairwise] <;> decide +kernel

/-- The report of a first batch of `generating`. -/
def generatingReport : Report where
  check := false
  entries := [⟨"a.abi", ⟨"/a.ts"⟩, "A", .written, none⟩, ⟨"b.abi", ⟨"/b.ts"⟩, "B", .written, none⟩]

end ContractBinding.Batch
