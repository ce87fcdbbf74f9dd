import ContractBinding.Batch.Run
import ContractBinding.Proofs.Command.Settled

/-!
# The jobs of a batch

A batch runs one job for every selected file, one after the other, and its entries say what became
of each.
-/

namespace ContractBinding.Batch

open Command (Fault Fine Job)
open Disk (Workspace)
open Disk.Workspace (run_bind_of_run)

variable {c : Config} {check : Bool} {s : Selected} {selected : List Selected} {w : Workspace}
  {result : Except Fault Command.Outcome}

/-- The job of a selected file. -/
def Config.job (c : Config) (s : Selected) : Job where
  abi := s.path
  contract := Command.contractName s.path
  settings := c.settings
  out := c.outputPath s.names

@[simp]
theorem abi_job (c : Config) (s : Selected) : (c.job s).abi = s.path := rfl

@[simp]
theorem out_job (c : Config) (s : Selected) : (c.job s).out = c.outputPath s.names := rfl

/-- The files that a configuration selects in a workspace. -/
def Config.selection (c : Config) (w : Workspace) : Except Fault (List Selected) :=
  ((selectFiles c : StateM Workspace _).run w).1

theorem run_selectFiles (c : Config) (w : Workspace) :
    (selectFiles c : StateM Workspace _).run w = (c.selection w, w) := by
  unfold Config.selection selectFiles
  rcases patterns .included c.included with _ | _ <;>
    rcases patterns .excluded c.excluded with _ | _ <;> rfl

/-- Finding and reading a configuration changes nothing. -/
theorem run_load (named : Option Disk.FilePath) (w : Workspace) :
    (Config.load named : StateM Workspace _).run w =
      (((Config.load named : StateM Workspace _).run w).1, w) := by
  have hfile (file : Disk.FilePath) : (Config.ofFile file : StateM Workspace _).run w =
      (((Config.ofFile file : StateM Workspace _).run w).1, w) := by
    have hread : (Disk.read file : StateM Workspace _).run w = (w.read file, w) := rfl
    unfold Config.ofFile
    rw [run_bind_of_run hread]
    cases w.read file <;> rfl
  have hhere : (Disk.workingDirectory : StateM Workspace _).run w = (w.workingDirectory, w) := rfl
  unfold Config.load
  rw [run_bind_of_run hhere]
  cases named with
  | some path => exact hfile _
  | none =>
    have hisFile : (Disk.isFile (w.workingDirectory.push defaultFileName) :
        StateM Workspace _).run w =
          ((w.read (w.workingDirectory.push defaultFileName)).toOption.isSome, w) := rfl
    dsimp only
    rw [run_bind_of_run hisFile]
    split
    · exact hfile _
    · rfl

/-- The entries of a batch. -/
def entries (c : Config) (check : Bool) (selected : List Selected) (w : Workspace) : List Entry :=
  List.zipWith (entryOf c) selected (Job.outcomes check (selected.map c.job) w)

theorem run_entries (c : Config) (check : Bool) (selected : List Selected) (w : Workspace) :
    (selected.mapM fun s => do return entryOf c s (← process c check s) :
        StateM Workspace _).run w =
      (entries c check selected w, Job.after check (selected.map c.job) w) := by
  induction selected generalizing w with
  | nil => rfl
  | cons s rest ih =>
    have hstep : (do return entryOf c s (← process c check s) : StateM Workspace _).run w =
        (entryOf c s ((c.job s).outcome check w), (c.job s).leave check w) := rfl
    rw [List.mapM_cons, run_bind_of_run hstep, run_bind_of_run (ih _)]
    rfl

theorem run_of_selection_eq_error {fault : Fault} (h : c.selection w = .error fault) :
    (run c check : StateM Workspace _).run w = (.error fault, w) := by
  unfold run
  rw [run_bind_of_run (run_selectFiles c w), h]
  rfl

theorem run_of_selection_eq_nil (h : c.selection w = .ok []) :
    (run c check : StateM Workspace _).run w = (.error (.nothingSelected c.root), w) := by
  unfold run
  rw [run_bind_of_run (run_selectFiles c w), h]
  rfl

theorem run_of_selection (h : c.selection w = .ok selected) (hne : selected ≠ []) :
    (run c check : StateM Workspace _).run w =
      (.ok { check, entries := entries c check selected w },
        Job.after check (selected.map c.job) w) := by
  obtain ⟨s, rest, rfl⟩ := List.exists_cons_of_ne_nil hne
  unfold run
  rw [run_bind_of_run (run_selectFiles c w), h]
  dsimp only
  rw [run_bind_of_run (run_entries c check (s :: rest) w)]
  rfl

theorem isFailure_entryOf :
    (entryOf c s result).status.isFailure = false ↔ Fine result := by
  rcases result with _ | _ | _ | _ <;> simp [entryOf, Status.isFailure, Fine]

/-- A report is ok exactly when every output was written or unchanged. -/
theorem ok_iff : ({ check, entries := entries c check selected w } : Report).ok = true ↔
    ∀ result ∈ Job.outcomes check (selected.map c.job) w, Fine result := by
  simp only [Report.ok, Report.failed, decide_eq_true_eq, List.countP_eq_zero, Bool.not_eq_true]
  induction selected generalizing w with
  | nil => simp [entries, Job.outcomes]
  | cons s rest ih =>
    simp only [entries, List.map_cons, Job.outcomes, List.zipWith_cons_cons, List.forall_mem_cons,
      isFailure_entryOf]
    exact and_congr_right fun _ => ih

end ContractBinding.Batch
