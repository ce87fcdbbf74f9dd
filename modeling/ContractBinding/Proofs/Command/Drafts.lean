import ContractBinding.Proofs.Command.Job

/-!
# What becomes of drafts

A job that has renamed its draft leaves nothing in the draft's place. Where no output is named as a
draft, no later job puts a file there again, and no draft ever was in the place of an output.
-/

namespace ContractBinding.Command.Job

open Disk (FilePath IsName Place Workspace draftName)

variable {j a b : Job} {jobs : List Job} {check : Bool} {w w' : Workspace} {p : Place}
  {result : Except Fault Outcome}

/-- Every draft of the jobs is renamed. -/
def AllRenamed (check : Bool) (jobs : List Job) (w : Workspace) : Prop :=
  ∀ result ∈ outcomes check jobs w, ∀ path reason, result ≠ .error (.rename path reason)

theorem allRenamed_of_ok (hok : ∀ result ∈ outcomes check jobs w, ∃ outcome, result = .ok outcome) :
    AllRenamed check jobs w := by
  intro result hresult path reason hfault
  obtain ⟨outcome, houtcome⟩ := hok result hresult
  rw [houtcome] at hfault
  cases hfault

theorem allRenamed_cons {rest : List Job} :
    AllRenamed check (j :: rest) w ↔
      (∀ path reason, j.outcome check w ≠ .error (.rename path reason)) ∧
        AllRenamed check rest (j.leave check w) :=
  List.forall_mem_cons

/-- The output of a job ends in a name. -/
def Named (j : Job) : Prop := ∃ (p : FilePath) (name : String), IsName name ∧ j.out = p.push name

/-- No output of one job is named as a draft of another. -/
def Unmistakable (jobs : List Job) : Prop :=
  ∀ a ∈ jobs, ∀ b ∈ jobs, ∀ (p q : FilePath) (name other : String) (process : UInt32)
    (number : UInt64), a.out = p.push name → b.out = q.push other → IsName name → IsName other →
      name ≠ draftName other process number

theorem Unmistakable.place_ne (h : Unmistakable jobs) (ha : a ∈ jobs) (hb : b ∈ jobs)
    (hnamed : a.Named) (hnamed' : b.Named) (here : Place) (process : UInt32) (number : UInt64) :
    a.out.place here ≠ (b.out.draft process number).place here := by
  obtain ⟨p, name, hn, hout⟩ := hnamed
  obtain ⟨q, other, hn', hout'⟩ := hnamed'
  have hne := h a ha b hb p q name other process number hout hout' hn hn'
  rw [hout, hout', FilePath.place_push hn, FilePath.place_draft_push hn']
  exact fun hplace => hne (List.append_singleton_inj.1 hplace).2

theorem Processed.named_of_written (h : Processed j check w (.ok .written) w') : j.Named := by
  generalize hresult : Except.ok Outcome.written = result at h
  rcases h with _ | ⟨-, _ | _ | _ | ⟨-, -, -, _ | _ | ⟨hnamed, -⟩⟩⟩
  any_goals cases hresult
  exact hnamed

/-- A draft that is renamed leaves its place. -/
theorem Processed.of_mem_drafted (h : Processed j check w result w')
    (hrename : ∀ path reason, result ≠ .error (.rename path reason)) (hp : p ∈ j.drafted w result) :
    j.Named ∧ p = w.draftPlace j.out ∧ w'.tree.get? p = none := by
  have hplace := eq_draftPlace_of_mem_drafted hp
  unfold drafted at hp
  split at hp
  · refine ⟨h.named_of_written, hplace, ?_⟩
    rw [hplace]
    generalize hresult : Except.ok Outcome.written = result at h
    rcases h with _ | ⟨-, _ | _ | _ | ⟨-, -, -, _ | _ | ⟨-, -, hdraft, -⟩⟩⟩
    any_goals cases hresult
    exact hdraft
  · exact absurd rfl (hrename _ _)
  · simp at hp

/-- Where every draft is renamed, drafts are put beside outputs that end in a name. -/
theorem exists_named_of_mem_drafts (hrename : AllRenamed check jobs w)
    (hp : p ∈ drafts check jobs w) :
    ∃ j ∈ jobs, j.Named ∧ ∃ number, p = (j.out.draft w.process number).place w.here := by
  induction jobs generalizing w with
  | nil => simp [drafts] at hp
  | cons j rest ih =>
    rw [allRenamed_cons] at hrename
    rcases List.mem_append.1 hp with hp | hp
    · obtain ⟨hnamed, hplace, -⟩ := (processed j check w).of_mem_drafted hrename.1 hp
      exact ⟨j, List.mem_cons_self, hnamed, w.drafts, hplace⟩
    · have hstep := (processed j check w).evolves
      obtain ⟨j', hj', hnamed, number, hp⟩ := ih hrename.2 hp
      rw [hstep.here, hstep.process] at hp
      exact ⟨j', List.mem_cons_of_mem j hj', hnamed, number, hp⟩

/-- No draft is put in the place of an output. -/
theorem Unmistakable.place_not_mem_drafts (h : Unmistakable jobs)
    (hrename : AllRenamed check jobs w) (hj : j ∈ jobs) (hnamed : j.Named) :
    j.out.place w.here ∉ drafts check jobs w := by
  intro hp
  obtain ⟨b, hb, hnamed', number, hplace⟩ := exists_named_of_mem_drafts hrename hp
  exact h.place_ne hj hb hnamed hnamed' w.here w.process number hplace

/-- Where every draft is renamed, no file is left in the place of one. -/
theorem Unmistakable.no_draft_after (h : Unmistakable jobs) (hrename : AllRenamed check jobs w)
    (hp : p ∈ drafts check jobs w) (bytes : ByteArray) :
    (after check jobs w).tree.get? p ≠ some (.file bytes) := by
  induction jobs generalizing w with
  | nil => simp [drafts] at hp
  | cons j rest ih =>
    rw [allRenamed_cons] at hrename
    have hrest : Unmistakable rest := fun a ha b hb =>
      h a (List.mem_cons_of_mem j ha) b (List.mem_cons_of_mem j hb)
    rcases List.mem_append.1 hp with hp | hp
    · obtain ⟨hnamed, hplace, hnone⟩ := (processed j check w).of_mem_drafted hrename.1 hp
      have hstep := (processed j check w).evolves
      intro hfile
      -- a later job would have had to write the file
      have hfile' := (evolves_after check rest (j.leave check w)).tree.file_of_file ?_ hfile
      · rw [hnone] at hfile'
        cases hfile'
      · rintro ⟨before, b, rest', rfl, ⟨hwritten, hout⟩ | ⟨⟨reason, hfault⟩, -⟩⟩
        · have hb := processed b check (after check before (j.leave check w))
          rw [hwritten] at hb
          rw [(evolves_after check before _).here, hstep.here, hplace] at hout
          exact h.place_ne (by simp) List.mem_cons_self hb.named_of_written hnamed w.here _ _
            hout.symm
        · exact hrename.2 _ (outcome_mem_outcomes before b rest' _) _ _ hfault
    · exact ih hrest hrename.2 hp

end ContractBinding.Command.Job
