import ContractBinding.Proofs.Command.Drafts
import ContractBinding.Proofs.Disk.Files

/-!
# Settled jobs

A job is settled where its output holds the code of its file. A settled job is left alone, and it
stays settled while others write elsewhere.
-/

namespace ContractBinding.Command.Job

open Disk (Place Workspace)

variable {j : Job} {jobs before rest : List Job} {check : Bool} {w w' : Workspace} {code : String}
  {files drafts directories : Place → Prop} {outcome : Outcome}

/-- The output holds exactly the code. -/
def Settled (j : Job) (w : Workspace) : Prop :=
  ∃ code : String, j.code w = .ok code ∧ w.read j.out = .ok code.toUTF8

theorem code_congr (h : w'.read j.abi = w.read j.abi) : j.code w' = j.code w := by
  unfold Job.code codeIn
  rw [h]

/-- Code stays what it is while its file is neither written nor taken away. -/
theorem code_of_evolves (h : w.Evolves files drafts directories w') (hcode : j.code w = .ok code)
    (habi : ¬ files (j.abi.place w.here)) (hdraft : ¬ drafts (j.abi.place w.here)) :
    j.code w' = .ok code := by
  cases hread : w.read j.abi with
  | error fault => simp [Job.code, codeIn, hread] at hcode
  | ok bytes => rw [← hcode, code_congr ((h.read hread habi hdraft).trans hread.symm)]

theorem Settled.evolves (h : j.Settled w) (hw : w.Evolves files drafts directories w')
    (habi : ¬ files (j.abi.place w.here)) (habi' : ¬ drafts (j.abi.place w.here))
    (hout : ¬ files (j.out.place w.here)) (hout' : ¬ drafts (j.out.place w.here)) :
    j.Settled w' := by
  obtain ⟨code, hcode, hread⟩ := h
  exact ⟨code, code_of_evolves hw hcode habi habi', hw.read hread hout hout'⟩

/-- A job is as settled as another process finds it. -/
theorem Settled.seenBy (h : j.Settled w) (process : UInt32) (drafts : UInt64) :
    j.Settled (w.seenBy process drafts) := h

theorem Settled.named (h : j.Settled w) (hroot : w.Rooted) : j.Named := by
  obtain ⟨code, -, hread⟩ := h
  exact hroot.exists_push_of_read hread

/-- What is settled is found unchanged, and nothing else is. -/
theorem outcome_eq_unchanged_iff : j.outcome check w = .ok .unchanged ↔ j.Settled w := by
  have hprocessed := processed j check w
  generalize j.outcome check w = result, j.leave check w = left at hprocessed
  unfold Settled
  simp only [← Disk.Workspace.current_eq_some_iff]
  rcases hprocessed with hcode | ⟨hcode, hread | hread | ⟨-, hread, htext⟩ |
    ⟨-, hread, htext, hresult⟩⟩
  · simp [hcode]
  · simp [hcode, hread]
  · simp [hcode, hread]
  · simp [hcode, hread, htext]
  · cases hresult <;> simp [hcode, hread, htext, Except.map]

/-- A check is fine with a job exactly where the job is settled. -/
theorem fine_outcome_iff_of_check : Fine (j.outcome true w) ↔ j.Settled w := by
  refine Iff.trans (or_iff_right fun hwritten => ?_) outcome_eq_unchanged_iff
  have hprocessed := processed j true w
  rw [hwritten] at hprocessed
  generalize hresult : Except.ok Outcome.written = result, j.leave true w = left at hprocessed
  rcases hprocessed with _ | ⟨-, _ | _ | _ | ⟨⟨⟩⟩⟩ <;> cases hresult

theorem fine_outcomes_iff_of_check :
    (∀ result ∈ outcomes true jobs w, Fine result) ↔ ∀ j ∈ jobs, j.Settled w := by
  rw [outcomes_of_check, List.forall_mem_map]
  exact forall₂_congr fun j _ => fine_outcome_iff_of_check

theorem leave_of_settled (h : j.Settled w) : j.leave check w = w := by
  have hprocessed := processed j check w
  rw [outcome_eq_unchanged_iff.2 h] at hprocessed
  generalize hresult : Except.ok Outcome.unchanged = result, j.leave check w = left at hprocessed
  rcases hprocessed with _ | ⟨_, _ | _ | _ | ⟨-, -, -, hr⟩⟩
  any_goals rfl
  cases hr <;> simp [Except.map] at hresult

/-- Where a job did not fail, the output holds the code that it had. -/
theorem read_leave_of_ok (h : j.outcome false w = .ok outcome) :
    ∃ code : String, j.code w = .ok code ∧ (j.leave false w).read j.out = .ok code.toUTF8 := by
  have hprocessed := processed j false w
  rw [h] at hprocessed
  generalize hresult : Except.ok outcome = result, j.leave false w = left at hprocessed
  rcases hprocessed with _ | ⟨hcode, _ | hread | ⟨⟨⟩⟩ | ⟨-, -, -, hr⟩⟩
  · cases hresult
  · cases hresult
  · exact ⟨_, hcode, Disk.Workspace.current_eq_some_iff.1 hread⟩
  · rcases hr with _ | _ | ⟨-, -, -, hread⟩
    · cases hresult
    · cases hresult
    · exact ⟨_, hcode, hread⟩

/-- A job that did not fail has settled, unless it has written its own file or put its draft
there. -/
theorem settled_leave (hout : j.out.place w.here ≠ j.abi.place w.here)
    (hdraft : j.abi.place w.here ∉ j.drafted w (j.outcome false w))
    (h : j.outcome false w = .ok outcome) : j.Settled (j.leave false w) := by
  obtain ⟨code, hcode, hread⟩ := read_leave_of_ok h
  refine ⟨code, code_of_evolves (processed j false w).evolves hcode ?_ hdraft, hread⟩
  rintro (⟨-, habi⟩ | ⟨⟨reason, hfault⟩, -⟩)
  · exact hout habi.symm
  · rw [h] at hfault
    cases hfault

/-- From the step of a job on, only the outputs of later jobs are written, if none of them fails. -/
theorem evolves_later_of_ok
    (hok : ∀ result ∈ outcomes false (before ++ j :: rest) w, ∃ outcome, result = .ok outcome) :
    (j.leave false (after false before w)).Evolves (fun p => ∃ b ∈ rest, p = b.out.place w.here)
      (· ∈ Job.drafts false rest (j.leave false (after false before w)))
      (fun p => ∃ b ∈ rest, b.out.OnParentWay w.here p) (after false (before ++ j :: rest) w) := by
  have hhere : (j.leave false (after false before w)).here = w.here :=
    (processed j false _).evolves.here.trans (evolves_after false before w).here
  rw [after_append, ← hhere]
  refine evolves_after_of_ok fun result hresult => hok result ?_
  rw [outcomes_append]
  exact List.mem_append_right _ (List.mem_cons_of_mem _ hresult)

/-- Where no job fails, no output is another's output or anybody's file, and nobody's file is in the
place of a draft, all jobs settle. -/
theorem settled_after (hroot : w.Rooted) (hnames : Unmistakable jobs)
    (hdistinct : jobs.Pairwise fun a b => a.out.place w.here ≠ b.out.place w.here)
    (hsources : ∀ a ∈ jobs, ∀ b ∈ jobs, a.out.place w.here ≠ b.abi.place w.here)
    (hdrafts : ∀ j ∈ jobs, j.abi.place w.here ∉ Job.drafts false jobs w)
    (hok : ∀ result ∈ outcomes false jobs w, ∃ outcome, result = .ok outcome) :
    ∀ j ∈ jobs, j.Settled (after false jobs w) := by
  intro j hj
  obtain ⟨before, rest, rfl⟩ := List.append_of_mem hj
  obtain ⟨outcome, houtcome⟩ := hok _ (outcome_mem_outcomes before j rest w)
  have hbefore := evolves_after false before w
  have hstep := (processed j false (after false before w)).evolves
  have hhere : (j.leave false (after false before w)).here = w.here :=
    hstep.here.trans hbefore.here
  -- the drafts of the job and of those after it are among all drafts
  have hsplit : ∀ p ∈ j.drafted (after false before w) (j.outcome false (after false before w)) ++
      Job.drafts false rest (j.leave false (after false before w)),
      p ∈ Job.drafts false (before ++ j :: rest) w := by
    intro p hp
    rw [drafts_append]
    exact List.mem_append_right _ hp
  have hsettled : j.Settled (j.leave false (after false before w)) := by
    refine settled_leave ?_ (fun hp => hdrafts j hj ?_) houtcome
    · rw [hbefore.here]
      exact hsources j hj j hj
    · rw [hbefore.here] at hp
      exact hsplit _ (List.mem_append_left _ hp)
  have hnamed := hsettled.named (hstep.rooted (hbefore.rooted hroot))
  have hout := hnames.place_not_mem_drafts (allRenamed_of_ok hok) hj hnamed
  refine hsettled.evolves (evolves_later_of_ok hok) ?_ ?_ ?_ ?_ <;> rw [hhere]
  · rintro ⟨b, hb, hp⟩
    exact hsources b (by simp [hb]) j hj hp.symm
  · exact fun hp => hdrafts j hj (hsplit _ (List.mem_append_right _ hp))
  · rintro ⟨b, hb, hp⟩
    exact (List.pairwise_cons.1 (List.pairwise_append.1 hdistinct).2.1).1 b hb hp
  · exact fun hp => hout (hsplit _ (List.mem_append_right _ hp))

/-- Settled jobs are all found unchanged, and nothing is touched. -/
theorem run_of_settled (h : ∀ j ∈ jobs, j.Settled w) :
    outcomes check jobs w = jobs.map (fun _ => .ok .unchanged) ∧ after check jobs w = w := by
  induction jobs with
  | nil => exact ⟨rfl, rfl⟩
  | cons j rest ih =>
    rw [List.forall_mem_cons] at h
    obtain ⟨houtcomes, hafter⟩ := ih h.2
    have hleave : j.leave check w = w := leave_of_settled h.1
    refine ⟨?_, ?_⟩
    · rw [outcomes, hleave, outcome_eq_unchanged_iff.2 h.1, houtcomes, List.map_cons]
    · rw [after, List.foldl_cons, hleave]
      exact hafter

end ContractBinding.Command.Job
