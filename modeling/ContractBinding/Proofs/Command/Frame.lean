import ContractBinding.Command.Run
import ContractBinding.Proofs.Batch.Outputs

/-!
# What a command line changes

A command line comes to the jobs that it asks for. Files change in their outputs only, and only to
the code of a job; nothing is lost but what had the name of a draft, and no draft stays. A check
changes nothing, and says whether all is settled.
-/

namespace ContractBinding.Command

open Disk (FilePath Place Workspace)
open Disk.Workspace (run_bind_of_run)

namespace Invocation

/-- Whether a command only compares. -/
def check : Invocation → Bool
  | .generate _ _ _ _ check => check
  | .batch _ check _ => check
  | .diagnostics | .help => false

/-- The jobs that a command asks for: none where there is no output, or nothing is selected. -/
def jobs (w : Workspace) : Invocation → List Job
  | .generate abi contract (some out) settings _ =>
    [{ abi, contract := contract.getD (contractName abi), settings, out }]
  | .batch config _ _ =>
    match ((Batch.Config.load config : StateM Workspace _).run w).1 with
    | .error _ => []
    | .ok c => match c.selection w with
      | .error _ => []
      | .ok selected => selected.map c.job
  | _ => []

/-- Where a command puts drafts: beside the outputs that it replaces. -/
def drafts (w : Workspace) (command : Invocation) : List Place :=
  Job.drafts command.check (command.jobs w) w

theorem unmistakable_jobs (command : Invocation) (w : Workspace) :
    Job.Unmistakable (command.jobs w) := by
  unfold jobs
  split
  · intro a ha b hb p q name other process number hout hout' hn hn'
    rw [List.mem_singleton] at ha hb
    have hname := FilePath.fileName?_push hn p
    rw [← hout, ha, ← hb, hout', FilePath.fileName?_push hn' q, Option.some.injEq] at hname
    rw [hname]
    exact (Disk.draftName_ne name process number).symm
  · split
    · exact fun _ h => absurd h List.not_mem_nil
    · split
      · exact fun _ h => absurd h List.not_mem_nil
      · exact Batch.unmistakable_jobs _ _
  · exact fun _ h => absurd h List.not_mem_nil

end Invocation

variable {abi out : FilePath} {contract : Option String} {settings : Settings} {check : Bool}
  {w : Workspace} {config : Option FilePath} {showsJson : Bool}

/-- How generating for an output ends. -/
def endingOf (out : FilePath) : Except Fault Outcome → Ending
  | .error fault => .failed fault
  | .ok .drift => .failed (.outputDiffers out)
  | .ok .written | .ok .unchanged => {}

theorem run_runGenerate_of_out (j : Job) (contract : Option String)
    (h : j.contract = contract.getD (contractName j.abi)) (check : Bool) (w : Workspace) :
    (runGenerate j.abi contract (some j.out) j.settings check : StateM Workspace _).run w =
      (endingOf j.out (j.outcome check w), j.leave check w) := by
  unfold runGenerate Job.outcome Job.leave
  rw [← h, run_bind_of_run (run_generateFile ..), ← Job.code]
  cases hcode : j.code w with
  | error fault =>
    rw [Job.run_of_code_eq_error hcode]
    rfl
  | ok code =>
    rw [Job.run_of_code_eq_ok hcode]
    have hsync : (syncOutput j.out code check : StateM Workspace _).run w =
      (((syncOutput j.out code check : StateM Workspace _).run w).1,
        ((syncOutput j.out code check : StateM Workspace _).run w).2) := rfl
    dsimp only
    rw [run_bind_of_run hsync]
    rcases ((syncOutput j.out code check : StateM Workspace _).run w).1 with _ | _ | _ | _ <;> rfl

theorem failure_endingOf {result : Except Fault Outcome} :
    (endingOf out result).failure = none ↔ Fine result := by
  rcases result with _ | _ | _ | _ <;> simp [endingOf, Ending.failed, Fine]

/-- Without an output nothing is written, and there is nothing that a check could compare. -/
theorem run_runGenerate_of_none (abi : FilePath) (contract : Option String) (settings : Settings)
    (check : Bool) (w : Workspace) :
    (runGenerate abi contract none settings check : StateM Workspace _).run w =
      (match codeIn w abi (contract.getD (contractName abi)) settings with
        | .error fault => .failed fault
        | .ok code => if check then .failed .nothingToCompare else .printed code, w) := by
  unfold runGenerate
  rw [run_bind_of_run (run_generateFile ..)]
  cases codeIn w abi (contract.getD (contractName abi)) settings <;> rfl

/-- A batch runs its jobs, and fails where there are none or one of them fails. -/
theorem run_runBatch (config : Option FilePath) (check showsJson : Bool) (w : Workspace) :
    let jobs := Invocation.jobs w (.batch config check showsJson)
    let run := (runBatch config check showsJson : StateM Workspace _).run w
    run.2 = Job.after check jobs w ∧
      (run.1.failure = none ↔ jobs ≠ [] ∧ ∀ result ∈ Job.outcomes check jobs w, Fine result) := by
  have hload := Batch.run_load config w
  generalize hresult : ((Batch.Config.load config : StateM Workspace _).run w).1 = result at hload
  unfold runBatch Invocation.jobs
  simp only [hresult, run_bind_of_run hload]
  rcases result with fault | c
  · exact ⟨rfl, by simp [Ending.failed]⟩
  cases hselection : c.selection w with
  | error fault =>
    have hrun : (Batch.run c check : StateM Workspace _).run w = _ :=
      Batch.run_of_selection_eq_error hselection
    simp only [hselection, run_bind_of_run hrun]
    exact ⟨rfl, by simp [Ending.failed]⟩
  | ok selected =>
    by_cases hne : selected = []
    · subst hne
      have hrun : (Batch.run c check : StateM Workspace _).run w = _ :=
        Batch.run_of_selection_eq_nil hselection
      simp only [hselection, run_bind_of_run hrun]
      exact ⟨rfl, by simp [Ending.failed]⟩
    · have hrun : (Batch.run c check : StateM Workspace _).run w = _ :=
        Batch.run_of_selection hselection hne
      simp only [hselection, run_bind_of_run hrun]
      refine ⟨rfl, ?_⟩
      have hjobs : selected.map c.job ≠ [] := by simpa using hne
      rw [← Batch.ok_iff, and_iff_right hjobs]
      show (if _ then none else some _) = none ↔ _
      simp

/-- A command leaves what its jobs leave. -/
theorem leave_run (command : Invocation) (w : Workspace) :
    ((command.run : StateM Workspace _).run w).2 =
      Job.after command.check (command.jobs w) w := by
  cases command with
  | generate abi contract out settings check =>
    cases out with
    | some out =>
      let j : Job := { abi, contract := contract.getD (contractName abi), settings, out }
      exact congrArg Prod.snd (run_runGenerate_of_out j contract rfl check w)
    | none => exact congrArg Prod.snd (run_runGenerate_of_none abi contract settings check w)
  | batch config check showsJson => exact (run_runBatch config check showsJson w).1
  | diagnostics => rfl
  | help => rfl

/-- A check succeeds exactly when there is a job, and none of the jobs fails. -/
theorem failure_run_of_check {command : Invocation} (hcheck : command.check = true)
    (w : Workspace) :
    ((command.run : StateM Workspace _).run w).1.failure = none ↔
      command.jobs w ≠ [] ∧ ∀ result ∈ Job.outcomes true (command.jobs w) w, Fine result := by
  cases command with
  | generate abi contract out settings check =>
    cases hcheck
    cases out with
    | some out =>
      let j : Job := { abi, contract := contract.getD (contractName abi), settings, out }
      have hrun := run_runGenerate_of_out j contract rfl true w
      show ((runGenerate j.abi contract (some j.out) j.settings true :
        StateM Workspace _).run w).1.failure = none ↔ _
      rw [hrun, failure_endingOf]
      simp [Invocation.jobs, Job.outcomes, j]
    | none =>
      show ((runGenerate abi contract none settings true :
        StateM Workspace _).run w).1.failure = none ↔ _
      rw [run_runGenerate_of_none]
      cases codeIn w abi (contract.getD (contractName abi)) settings <;>
        simp [Invocation.jobs, Ending.failed]
  | batch config check showsJson =>
    cases hcheck
    exact (run_runBatch config true showsJson w).2
  | diagnostics => cases hcheck
  | help => cases hcheck

variable {command : Invocation} {j : Job} {jobs : List Job} {w' : Workspace} {p : Place}
  {bytes : ByteArray}

/-- One job changes its output only, to its code, unless its draft could not be renamed. -/
theorem Job.Processed.file {result : Except Fault Outcome} (h : j.Processed check w result w')
    (hrename : ∀ path reason, result ≠ .error (.rename path reason))
    (hp : w'.tree.get? p = some (.file bytes)) :
    w.tree.get? p = some (.file bytes) ∨
      ∃ code : String, j.code w = .ok code ∧ p = j.out.place w.here ∧ bytes = code.toUTF8 := by
  rcases h with _ | ⟨hcode, _ | _ | _ | ⟨-, -, -, hreplaced⟩⟩
  · exact .inl hp
  · exact .inl hp
  · exact .inl hp
  · exact .inl hp
  · rcases hreplaced with ⟨-, h⟩ | _ | ⟨-, h, -, hout⟩
    · exact .inl (h.tree.file_of_file id hp)
    · exact absurd rfl (hrename _ _)
    · by_cases hplace : p = j.out.place w.here
      · refine .inr ⟨_, hcode, hplace, ?_⟩
        rw [Disk.Workspace.read_eq_ok_iff, Disk.Workspace.node_eq_ok_iff, h.here, ← hplace, hp]
          at hout
        simpa using hout.2
      · exact .inl (h.tree.file_of_file hplace hp)

/-- Jobs change their outputs only, each to the code that one of them has had for it. -/
theorem Job.file_after (hrename : AllRenamed check jobs w)
    (hp : (after check jobs w).tree.get? p = some (.file bytes)) :
    w.tree.get? p = some (.file bytes) ∨
      ∃ before j rest code, jobs = before ++ j :: rest ∧
        j.code (after check before w) = .ok code ∧ p = j.out.place w.here ∧
        bytes = code.toUTF8 := by
  unfold AllRenamed at hrename
  induction jobs using List.reverseRecOn with
  | nil => exact .inl hp
  | append_singleton jobs j ih =>
    rw [outcomes_append] at hrename
    rw [after_append] at hp
    have hlast := (processed j check (after check jobs w)).file
      (hrename _ (List.mem_append_right _ List.mem_cons_self)) hp
    rcases hlast with hp | ⟨code, hcode, hplace, hbytes⟩
    · rcases ih (fun result hresult => hrename result (List.mem_append_left _ hresult)) hp with
        h | ⟨before, j', rest, code, rfl, hcode⟩
      · exact .inl h
      · exact .inr ⟨before, j', rest ++ [j], code, by simp, hcode⟩
    · rw [(evolves_after check jobs w).here] at hplace
      exact .inr ⟨jobs, j, [], code, rfl, hcode, hplace, hbytes⟩

/-- Jobs without code leave everything as it is. -/
theorem Job.after_eq_of_code_eq_error (h : ∀ j ∈ jobs, ∃ fault, j.code w = .error fault) :
    after check jobs w = w := by
  induction jobs with
  | nil => rfl
  | cons j rest ih =>
    obtain ⟨⟨fault, hcode⟩, hrest⟩ := List.forall_mem_cons.1 h
    have hleave : j.leave check w = w := congrArg Prod.snd (run_of_code_eq_error hcode)
    rw [after, List.foldl_cons, hleave]
    exact ih hrest

/-- What a run of a command may change, and what its exit code says. -/
structure Invocation.Framed (command : Invocation) (w : Workspace) (exit : Exit) (w' : Workspace) :
    Prop where
  /-- Where every draft is renamed, a file that was not there before with these bytes is an output,
  and its bytes are the code that was generated for it in the run. -/
  written : Job.AllRenamed command.check (command.jobs w) w →
    ∀ p bytes, w'.tree.get? p = some (.file bytes) → w.tree.get? p ≠ some (.file bytes) →
      ∃ before j rest code, command.jobs w = before ++ j :: rest ∧
        j.code (Job.after command.check before w) = .ok code ∧ p = j.out.place w.here ∧
        bytes = code.toUTF8
  /-- No file is removed, unless it has the name of a draft of the process. -/
  kept : ∀ p bytes, w.tree.get? p = some (.file bytes) → p ∉ command.drafts w →
    ∃ bytes', w'.tree.get? p = some (.file bytes')
  /-- Drafts are put beside outputs, under names that have the number of the process. -/
  beside : ∀ p ∈ command.drafts w, ∃ j ∈ command.jobs w, ∃ number,
    p = (j.out.draft w.process number).place w.here
  /-- Where every draft is renamed, none stays. -/
  taken : Job.AllRenamed command.check (command.jobs w) w →
    ∀ p ∈ command.drafts w, ∀ bytes, w'.tree.get? p ≠ some (.file bytes)
  /-- A check changes nothing. -/
  checked : command.check = true → w' = w
  /-- Where nothing can be generated, or there is no output, nothing changes. -/
  idle : (∀ j ∈ command.jobs w, ∃ fault, j.code w = .error fault) → w' = w
  /-- A check succeeds exactly when there is something to check and all of it is settled. -/
  success : command.check = true →
    (exit.code = 0 ↔ command.jobs w ≠ [] ∧ ∀ j ∈ command.jobs w, j.Settled w)

theorem run_runLine {arguments : List String} (h : Invocation.ofArguments arguments = .ok command)
    (w : Workspace) :
    let run := (runLine arguments : StateM Workspace _).run w
    let ending := (command.run : StateM Workspace _).run w
    run.2 = ending.2 ∧ (run.1.code = 0 ↔ ending.1.failure = none) := by
  have hrun : (command.run : StateM Workspace _).run w =
    (((command.run : StateM Workspace _).run w).1,
      ((command.run : StateM Workspace _).run w).2) := rfl
  unfold runLine
  simp only [h, run_bind_of_run hrun]
  refine ⟨rfl, ?_⟩
  rcases ((command.run : StateM Workspace _).run w).1 with ⟨output, _ | fault⟩
  · exact iff_of_true rfl rfl
  · exact iff_of_false (show (1 : UInt8) ≠ 0 by decide) nofun

/-- A disk with one document in its root. -/
def oneDocument : Workspace := .ofTexts [("a.abi", "{}")]

/-- The arguments that generate the code of that document. -/
def generateArguments : List String := ["generate", "--abi=a.abi", "--out=a.ts", "--no-source-hash"]

end ContractBinding.Command
