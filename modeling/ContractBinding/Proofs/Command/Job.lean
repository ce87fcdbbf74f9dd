import ContractBinding.Proofs.Command.Replacement

/-!
# Jobs

A job brings the code of one file to one output. What a job leaves depends on what it finds: jobs
one after the other are each run in the workspace that those before have left.
-/

namespace ContractBinding.Command

open Disk (FilePath Place Workspace)
open Disk.Workspace (run_bind_of_run)

/-- Whether an outcome is no failure: the output holds the code afterwards. -/
def Fine (result : Except Fault Outcome) : Prop := result = .ok .written ∨ result = .ok .unchanged

theorem Fine.exists_ok {result : Except Fault Outcome} (h : Fine result) :
    ∃ outcome, result = .ok outcome := by
  rcases h with rfl | rfl
  · exact ⟨_, rfl⟩
  · exact ⟨_, rfl⟩

/-- The code of a file in a workspace. -/
def codeIn (w : Workspace) (abi : FilePath) (contract : String) (settings : Settings) :
    Except Fault String :=
  match w.read abi with
  | .error fault => .error (.readAbi abi fault)
  | .ok bytes => codeOf abi contract settings bytes

theorem run_generateFile (abi : FilePath) (contract : String) (settings : Settings)
    (w : Workspace) :
    (generateFile abi contract settings : StateM Workspace _).run w =
      (codeIn w abi contract settings, w) := by
  have hread : (Disk.read abi : StateM Workspace _).run w = (w.read abi, w) := rfl
  unfold generateFile codeIn
  rw [run_bind_of_run hread]
  cases w.read abi <;> rfl

/-- A file, what is generated from it, and where the code goes. -/
structure Job where
  abi : FilePath
  contract : String
  settings : Settings
  out : FilePath
  deriving DecidableEq

namespace Job

/-- The code of a job's file. -/
def code (j : Job) (w : Workspace) : Except Fault String :=
  codeIn w j.abi j.contract j.settings

/-- Generate the code of a job and bring it to its output. -/
def run {m : Type → Type} [Monad m] [Disk m] (j : Job) (check : Bool) :
    m (Except Fault Outcome) := do
  match ← generateFile j.abi j.contract j.settings with
  | .error fault => return .error fault
  | .ok code => syncOutput j.out code check

/-- What becomes of a job in a workspace. -/
def outcome (j : Job) (check : Bool) (w : Workspace) : Except Fault Outcome :=
  ((j.run check : StateM Workspace _).run w).1

/-- The workspace that a job leaves. -/
def leave (j : Job) (check : Bool) (w : Workspace) : Workspace :=
  ((j.run check : StateM Workspace _).run w).2

variable {j : Job} {jobs before rest : List Job} {check : Bool} {w w' : Workspace} {code : String}
  {fault : Fault}

/-- A job whose file gives no code fails with what went wrong there. -/
theorem run_of_code_eq_error (h : j.code w = .error fault) :
    (j.run check : StateM Workspace _).run w = (.error fault, w) := by
  unfold Job.run
  rw [run_bind_of_run (run_generateFile ..), ← Job.code, h]
  rfl

/-- A job whose file gives code is about the output. -/
theorem run_of_code_eq_ok (h : j.code w = .ok code) :
    (j.run check : StateM Workspace _).run w =
      (syncOutput j.out code check : StateM Workspace _).run w := by
  unfold Job.run
  rw [run_bind_of_run (run_generateFile ..), ← Job.code, h]

/-- What a job comes to. -/
inductive Processed (j : Job) (check : Bool) (w : Workspace) :
    Except Fault Outcome → Workspace → Prop
  | failed {fault : Fault} (h : j.code w = .error fault) : Processed j check w (.error fault) w
  | synced {code : String} {result : Except Fault Outcome} {w' : Workspace}
      (h : j.code w = .ok code) (hsynced : Synced j.out code check w result w') :
    Processed j check w result w'

theorem processed (j : Job) (check : Bool) (w : Workspace) :
    Processed j check w (j.outcome check w) (j.leave check w) := by
  unfold outcome leave
  cases h : j.code w with
  | error fault =>
    rw [run_of_code_eq_error h]
    exact .failed h
  | ok code =>
    rw [run_of_code_eq_ok h]
    exact .synced h (synced j.out code check w)

/-- The places where a job may have written a file that stays: its output, or that of its draft
where the draft could not be renamed. -/
def Writes (j : Job) (w : Workspace) (result : Except Fault Outcome) (p : Place) : Prop :=
  (result = .ok .written ∧ p = j.out.place w.here) ∨
    ((∃ reason, result = .error (.rename j.out reason)) ∧ p = w.draftPlace j.out)

/-- Where a job has put a draft, if it has come so far. -/
def drafted (j : Job) (w : Workspace) : Except Fault Outcome → List Place
  | .ok .written | .error (.rename _ _) => [w.draftPlace j.out]
  | _ => []

theorem eq_draftPlace_of_mem_drafted {result : Except Fault Outcome} {p : Place}
    (hp : p ∈ j.drafted w result) : p = w.draftPlace j.out := by
  unfold drafted at hp
  split at hp
  · exact List.mem_singleton.1 hp
  · exact List.mem_singleton.1 hp
  · simp at hp

theorem Processed.evolves {result : Except Fault Outcome} (h : Processed j check w result w') :
    w.Evolves (j.Writes w result) (· ∈ j.drafted w result) (j.out.OnParentWay w.here) w' := by
  rcases h with _ | ⟨_, _ | _ | _ | ⟨_, _, _, ⟨-, h⟩ | h | ⟨-, h, -, -⟩⟩⟩
  any_goals exact .refl w
  · exact h.mono (fun _ => False.elim) (fun _ _ _ => False.elim) fun _ _ => id
  · exact h.mono (fun p hp => .inr ⟨⟨_, rfl⟩, hp⟩) (fun _ _ _ => False.elim) fun _ _ => id
  · exact h.mono (fun p hp => .inl ⟨rfl, hp⟩) (fun p _ _ hp => List.mem_singleton.2 hp)
      fun _ _ => id

/-- A check leaves everything as it is. -/
theorem Processed.eq_of_check {result : Except Fault Outcome} (h : Processed j true w result w') :
    w' = w := by
  rcases h with _ | ⟨_, _ | _ | _ | ⟨⟨⟩⟩⟩ <;> rfl

/-- What was written is read back: the code that the job had. -/
theorem Processed.read_of_written (h : Processed j check w (.ok .written) w') :
    ∃ code : String, j.code w = .ok code ∧ w'.read j.out = .ok code.toUTF8 := by
  generalize hresult : Except.ok Outcome.written = result at h
  rcases h with _ | ⟨hcode, _ | _ | _ | ⟨-, -, -, _ | _ | ⟨-, -, -, hout⟩⟩⟩
  any_goals cases hresult
  exact ⟨_, hcode, hout⟩

/-- What becomes of jobs one after the other. -/
def outcomes (check : Bool) : List Job → Workspace → List (Except Fault Outcome)
  | [], _ => []
  | j :: rest, w => j.outcome check w :: outcomes check rest (j.leave check w)

/-- The workspace that jobs one after the other leave. -/
def after (check : Bool) (jobs : List Job) (w : Workspace) : Workspace :=
  jobs.foldl (fun w j => j.leave check w) w

theorem after_append (check : Bool) (jobs more : List Job) (w : Workspace) :
    after check (jobs ++ more) w = after check more (after check jobs w) :=
  List.foldl_append

theorem outcomes_append (check : Bool) (jobs more : List Job) (w : Workspace) :
    outcomes check (jobs ++ more) w =
      outcomes check jobs w ++ outcomes check more (after check jobs w) := by
  induction jobs generalizing w with
  | nil => rfl
  | cons j rest ih => exact congrArg (j.outcome check w :: ·) (ih (j.leave check w))

theorem length_outcomes (check : Bool) (jobs : List Job) (w : Workspace) :
    (outcomes check jobs w).length = jobs.length := by
  induction jobs generalizing w with
  | nil => rfl
  | cons j rest ih => exact congrArg (· + 1) (ih (j.leave check w))

/-- The outcome of every job is the one that the job has in the workspace before it. -/
theorem outcome_mem_outcomes (before : List Job) (j : Job) (rest : List Job) (w : Workspace) :
    j.outcome check (after check before w) ∈ outcomes check (before ++ j :: rest) w := by
  rw [outcomes_append]
  exact List.mem_append_right _ List.mem_cons_self

/-- Where jobs one after the other have put drafts. -/
def drafts (check : Bool) : List Job → Workspace → List Place
  | [], _ => []
  | j :: rest, w => j.drafted w (j.outcome check w) ++ drafts check rest (j.leave check w)

theorem drafts_append (check : Bool) (jobs more : List Job) (w : Workspace) :
    drafts check (jobs ++ more) w =
      drafts check jobs w ++ drafts check more (after check jobs w) := by
  induction jobs generalizing w with
  | nil => rfl
  | cons j rest ih =>
    rw [List.cons_append, drafts, drafts, ih, List.append_assoc]
    rfl

/-- Jobs write where one of them does, lose at most what stood in the places of their drafts, and
make directories on the ways of their outputs. -/
theorem evolves_after (check : Bool) (jobs : List Job) (w : Workspace) :
    w.Evolves (fun p => ∃ before j rest, jobs = before ++ j :: rest ∧
        j.Writes (after check before w) (j.outcome check (after check before w)) p)
      (· ∈ drafts check jobs w) (fun p => ∃ j ∈ jobs, j.out.OnParentWay w.here p)
      (after check jobs w) := by
  induction jobs generalizing w with
  | nil => exact .refl w
  | cons j rest ih =>
    have hstep := (processed j check w).evolves
    have hrest := ih (j.leave check w)
    rw [hstep.here] at hrest
    refine Disk.Workspace.Evolves.trans (hstep.mono ?_ ?_ ?_) (hrest.mono ?_ ?_ ?_)
    · exact fun p hp => ⟨[], j, rest, rfl, hp⟩
    · exact fun p _ _ hp => List.mem_append_left _ hp
    · exact fun p _ hp => ⟨j, List.mem_cons_self, hp⟩
    · rintro p ⟨before, j', rest', rfl, hp⟩
      exact ⟨j :: before, j', rest', rfl, hp⟩
    · exact fun p _ _ hp => List.mem_append_right _ hp
    · rintro p - ⟨j', hj', hp⟩
      exact ⟨j', List.mem_cons_of_mem j hj', hp⟩

/-- A draft is beside the output of its job. -/
theorem exists_of_mem_drafts {p : Place} (hp : p ∈ drafts check jobs w) :
    ∃ j ∈ jobs, ∃ number, p = (j.out.draft w.process number).place w.here := by
  induction jobs generalizing w with
  | nil => simp [drafts] at hp
  | cons j rest ih =>
    rcases List.mem_append.1 hp with hp | hp
    · exact ⟨j, List.mem_cons_self, w.drafts, eq_draftPlace_of_mem_drafted hp⟩
    · have hstep := (processed j check w).evolves
      obtain ⟨j', hj', number, hp⟩ := ih hp
      rw [hstep.here, hstep.process] at hp
      exact ⟨j', List.mem_cons_of_mem j hj', number, hp⟩

/-- Where no job fails, files are written in outputs only. -/
theorem evolves_after_of_ok
    (hok : ∀ result ∈ outcomes check jobs w, ∃ outcome, result = .ok outcome) :
    w.Evolves (fun p => ∃ j ∈ jobs, p = j.out.place w.here) (· ∈ drafts check jobs w)
      (fun p => ∃ j ∈ jobs, j.out.OnParentWay w.here p) (after check jobs w) := by
  refine (evolves_after check jobs w).mono ?_ (fun _ _ _ => id) fun _ _ => id
  rintro p ⟨before, j, rest, rfl, ⟨-, hp⟩ | ⟨⟨reason, hfault⟩, -⟩⟩
  · rw [(evolves_after check before w).here] at hp
    exact ⟨j, by simp, hp⟩
  · obtain ⟨outcome, houtcome⟩ := hok _ (outcome_mem_outcomes before j rest w)
    simp [houtcome] at hfault

theorem after_eq_of_check (jobs : List Job) (w : Workspace) : after true jobs w = w := by
  induction jobs generalizing w with
  | nil => rfl
  | cons j rest ih =>
    rw [after, List.foldl_cons, (processed j true w).eq_of_check]
    exact ih w

/-- In a check every job finds the workspace as it is. -/
theorem outcomes_of_check (jobs : List Job) (w : Workspace) :
    outcomes true jobs w = jobs.map fun j => j.outcome true w := by
  induction jobs with
  | nil => rfl
  | cons j rest ih => rw [outcomes, (processed j true w).eq_of_check, ih, List.map_cons]

end Job

end ContractBinding.Command
