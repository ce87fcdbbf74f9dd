import ContractBinding.Proofs.Command.Settled
import ContractBinding.Proofs.Disk.Direct

/-!
# Jobs that keep apart

Jobs keep apart where no output is another's output or above it, no draft is above another's output,
and none is the file of a later job. On direct outputs, with nothing in the places of the drafts,
such jobs do not notice each other: each comes to what it comes to alone.
-/

namespace ContractBinding.Command

open Disk (FilePath IsName Place Workspace)

variable {w w' : Workspace} {files directories : Place → Prop} {p : FilePath} {name : String}
  {code : String} {text : Option String}

/-- Where a direct path to a name can be read or leads nowhere, and there is nothing in the place of
its draft, it can be replaced. -/
theorem replaceFile_of_direct (hn : IsName name) (hroot : w.Rooted)
    (hdirect : (p.push name).Direct w) (hempty : w.tree.get? (w.draftPlace (p.push name)) = none)
    (hcurrent : w.current (p.push name) = .ok text) :
    ((replaceFile (p.push name) code : StateM Workspace _).run w).1 = .ok () := by
  obtain ⟨hway, hout⟩ : (∀ q ∈ (p.push name).way w.here,
      w.tree.get? q = some .directory ∨ w.tree.get? q = none) ∧
      w.tree.get? ((p.push name).place w.here) ≠ some .directory := by
    cases text with
    | some code =>
      obtain ⟨hlocate, hfile⟩ := Workspace.node_eq_ok_iff.1
        (Workspace.read_eq_ok_iff.1 (Workspace.current_eq_some_iff.1 hcurrent))
      exact ⟨fun q hq => .inl ((Workspace.locate_eq_ok_iff.1 hlocate).2.1 q hq), by simp [hfile]⟩
    | none =>
      rcases Workspace.node_of_read_eq_notFound (Workspace.read_of_current_eq_none hcurrent) with
        hlocate | ⟨hlocate, hnone⟩
      · rw [Workspace.locate, if_neg (FilePath.text_push_ne_empty hn p)] at hlocate
        obtain ⟨hnone, hfiles⟩ := hdirect.of_walk_eq_notFound hroot.1 hlocate
        refine ⟨fun q hq => ?_, fun hdir => by simp [FilePath.place, hnone] at hdir⟩
        rcases hnode : w.tree.get? q with _ | _ | bytes
        · exact .inr rfl
        · exact .inl rfl
        · exact absurd hnode (hfiles q hq bytes)
      · exact ⟨fun q hq => .inl ((Workspace.locate_eq_ok_iff.1 hlocate).2.1 q hq), by simp [hnone]⟩
  refine replaceFile_eq_ok hn p hroot (fun q hq => ⟨?_, ?_, fun bytes hfile => ?_⟩) hout
    (by simp [hempty])
  · rcases hway q hq with hdir | hnone
    · rintro rfl
      exact hout hdir
    · exact (hdirect.prefix_of_mem_way hn hq hnone).2
  · -- an empty place on the way of a direct path lies above the path's place, and no draft does
    intro heq
    rw [heq] at hq
    exact FilePath.not_prefix_draft_push hn p w.here (hdirect.prefix_of_mem_way hn hq hempty).1
  · rcases hway q hq with hnode | hnode <;> simp [hnode] at hfile

namespace Job

variable {j : Job} {jobs : List Job}

/-- The places of the drafts that the process can put for a job. -/
def draft (j : Job) (w : Workspace) (number : UInt64) : Place :=
  (j.out.draft w.process number).place w.here

/-- A job whose output is a name at the end of a direct path, with nothing in the places of its
drafts. -/
structure Plain (j : Job) (w : Workspace) : Prop where
  named : j.Named
  direct : j.out.Direct w
  empty : ∀ number, w.tree.get? (j.draft w number) = none

theorem Plain.evolves (h : j.Plain w) (hw : w.Evolves files (fun _ => False) directories w')
    (hfiles : ∀ number, ¬ files (j.draft w number))
    (hdirectories : ∀ number, ¬ directories (j.draft w number)) : j.Plain w' where
  named := h.named
  direct := h.direct.evolves hw
  empty number := by
    rw [draft, hw.process, hw.here]
    exact (hw.tree.get?_eq (hfiles number) id (hdirectories number)).trans (h.empty number)

theorem Plain.replaceFile (h : j.Plain w) (hroot : w.Rooted)
    (hcurrent : w.current j.out = .ok text) :
    ((replaceFile j.out code : StateM Workspace _).run w).1 = .ok () := by
  obtain ⟨p, name, hn, hout⟩ := h.named
  have hdirect := h.direct
  have hempty := h.empty w.drafts
  rw [draft, ← Workspace.draftPlace] at hempty
  rw [hout] at hcurrent hdirect hempty ⊢
  exact replaceFile_of_direct hn hroot hdirect hempty hcurrent

/-- What a plain job brings up to date holds its code afterwards, and nothing is taken away. -/
theorem Plain.done (h : j.Plain w) (hroot : w.Rooted) (hcurrent : w.current j.out = .ok text) :
    w.Evolves (· = j.out.place w.here) (fun _ => False) (j.out.OnParentWay w.here)
      ((Command.replaceFile j.out code : StateM Workspace _).run w).2 ∧
    ((Command.replaceFile j.out code : StateM Workspace _).run w).2.read j.out =
      .ok code.toUTF8 := by
  have hreplaced := replaced j.out code w
  rw [h.replaceFile hroot hcurrent] at hreplaced
  cases hreplaced with
  | done _ hevolves _ hout =>
    refine ⟨hevolves.mono (fun _ => id) (fun q bytes hfile hq => ?_) fun _ _ => id, hout⟩
    have hempty := h.empty w.drafts
    rw [draft, ← Workspace.draftPlace, ← hq, hfile] at hempty
    cases hempty

/-- A plain job writes its output only, and makes directories above it only. -/
theorem Plain.leave (h : j.Plain w) (hroot : w.Rooted) :
    w.Evolves (· = j.out.place w.here) (fun _ => False) (· <+: j.out.place w.here)
      (j.leave false w) := by
  unfold Job.leave
  cases hcode : j.code w with
  | error fault =>
    rw [run_of_code_eq_error hcode]
    exact .refl w
  | ok code =>
    rw [run_of_code_eq_ok hcode, run_syncOutput]
    cases hcurrent : w.current j.out with
    | error fault => exact .refl w
    | ok text =>
      dsimp only
      split
      · exact .refl w
      · refine (h.done hroot hcurrent).1.mono (fun _ => id) (fun _ _ _ => id) fun q hnone hq => ?_
        obtain ⟨p, name, hn, hout⟩ := h.named
        have hdirect := h.direct
        rw [hout] at hq hdirect ⊢
        exact (hdirect.prefix_of_mem_way hn ((FilePath.onParentWay_push hn p).1 hq)
          (hnone.resolve_right id)).1

/-- A plain job comes to the same wherever its file, its output, what is above that and the places
of its drafts are the same. -/
theorem Plain.congr (h : j.Plain w) (hroot : w.Rooted)
    (hw : w.Evolves files (fun _ => False) directories w') (h' : j.Plain w')
    (hread : ∃ bytes, w.read j.abi = .ok bytes) (habi : ¬ files (j.abi.place w.here))
    (hfiles : ∀ q, files q → ¬ q <+: j.out.place w.here)
    (hdirectories : ¬ directories (j.out.place w.here)) :
    j.outcome false w' = j.outcome false w ∧
      (j.leave false w').node j.out = (j.leave false w).node j.out := by
  obtain ⟨bytes, hread⟩ := hread
  have hnode := hw.node_of_direct hroot h.direct hfiles hdirectories
  have hcurrent : w'.current j.out = w.current j.out := by
    unfold Workspace.current Workspace.text Workspace.read
    rw [hnode]
  have hcode : j.code w' = j.code w := code_congr ((hw.read hread habi id).trans hread.symm)
  unfold outcome Job.leave
  cases hresult : j.code w with
  | error fault =>
    rw [run_of_code_eq_error hresult, run_of_code_eq_error (hcode.trans hresult)]
    exact ⟨rfl, hnode⟩
  | ok code =>
    rw [run_of_code_eq_ok hresult, run_of_code_eq_ok (hcode.trans hresult), run_syncOutput,
      run_syncOutput, hcurrent]
    cases htext : w.current j.out with
    | error fault => exact ⟨rfl, hnode⟩
    | ok text =>
      dsimp only
      split
      · exact ⟨rfl, hnode⟩
      · have hroot' := hw.rooted hroot
        rw [htext] at hcurrent
        refine ⟨?_, ?_⟩
        · simp only [Bool.false_eq_true, if_false, h.replaceFile hroot htext,
            h'.replaceFile hroot' hcurrent]
        · simp only [Bool.false_eq_true, if_false]
          rw [Workspace.read_eq_ok_iff.1 (h.done hroot htext).2,
            Workspace.read_eq_ok_iff.1 (h'.done hroot' hcurrent).2]

/-- No output is the other's output or above it, no draft of one is above the output of the other,
and the first output is not the file of the second job. The second output may be the file of the
first job, which is read before. -/
structure Apart (w : Workspace) (a b : Job) : Prop where
  not_above : ¬ a.out.place w.here <+: b.out.place w.here
  not_below : ¬ b.out.place w.here <+: a.out.place w.here
  output_ne_abi : a.out.place w.here ≠ b.abi.place w.here
  draft_not_above : ∀ number, ¬ a.draft w number <+: b.out.place w.here
  draft_not_below : ∀ number, ¬ b.draft w number <+: a.out.place w.here

theorem Apart.evolves {drafts : Place → Prop} {a b : Job} (h : Apart w a b)
    (hw : w.Evolves files drafts directories w') : Apart w' a b := by
  have hdraft (j : Job) (number : UInt64) : j.draft w' number = j.draft w number := by
    rw [draft, draft, hw.process, hw.here]
  obtain ⟨habove, hbelow, habi, hdraftAbove, hdraftBelow⟩ := h
  refine ⟨?_, ?_, ?_, fun number => ?_, fun number => ?_⟩ <;> rw [hw.here]
  · exact habove
  · exact hbelow
  · exact habi
  · rw [hdraft]
    exact hdraftAbove number
  · rw [hdraft]
    exact hdraftBelow number

/-- A plain job before another one that it keeps apart from leaves that plain. -/
theorem Plain.plain_leave {a b : Job} (hb : b.Plain w) (ha : a.Plain w) (hroot : w.Rooted)
    (hapart : Apart w a b) : b.Plain (a.leave false w) := by
  refine hb.evolves (ha.leave hroot) (fun number hq => ?_) hapart.draft_not_below
  exact hapart.draft_not_below number (hq ▸ List.prefix_rfl)

/-- It makes no difference to that job. -/
theorem Plain.congr_leave {b : Job} (hb : b.Plain w) (hj : j.Plain w) (hroot : w.Rooted)
    (hread : ∃ bytes, w.read b.abi = .ok bytes) (hapart : Apart w j b) :
    b.outcome false (j.leave false w) = b.outcome false w ∧
      (b.leave false (j.leave false w)).node b.out = (b.leave false w).node b.out := by
  refine hb.congr hroot (hj.leave hroot) (hb.plain_leave hj hroot hapart) hread
    (Ne.symm hapart.output_ne_abi) ?_ hapart.not_below
  rintro q rfl
  exact hapart.not_above

/-- Plain jobs that keep apart write their outputs only, and make directories above them only. -/
theorem after_of_plain (hroot : w.Rooted) (h : ∀ j ∈ jobs, j.Plain w)
    (hapart : jobs.Pairwise (Apart w)) :
    w.Evolves (fun q => ∃ j ∈ jobs, q = j.out.place w.here) (fun _ => False)
      (fun q => ∃ j ∈ jobs, q <+: j.out.place w.here) (after false jobs w) := by
  induction jobs generalizing w with
  | nil => exact .refl w
  | cons j rest ih =>
    rw [List.forall_mem_cons] at h
    rw [List.pairwise_cons] at hapart
    have hstep := h.1.leave hroot
    have hrest := ih (hstep.rooted hroot)
      (fun b hb => (h.2 b hb).plain_leave h.1 hroot (hapart.1 b hb))
      (hapart.2.imp fun h => h.evolves hstep)
    rw [hstep.here] at hrest
    refine Workspace.Evolves.trans (hstep.mono ?_ ?_ ?_) (hrest.mono ?_ ?_ ?_)
    · exact fun q hq => ⟨j, List.mem_cons_self, hq⟩
    · exact fun _ _ _ => id
    · exact fun q _ hq => ⟨j, List.mem_cons_self, hq⟩
    · exact fun q ⟨j', hj', hq⟩ => ⟨j', List.mem_cons_of_mem j hj', hq⟩
    · exact fun _ _ _ => id
    · exact fun q _ ⟨j', hj', hq⟩ => ⟨j', List.mem_cons_of_mem j hj', hq⟩

/-- Plain jobs leave the output of another one that keeps apart from them as it is. -/
theorem node_after (hdirect : j.out.Direct w) (hroot : w.Rooted) (hplain : ∀ b ∈ jobs, b.Plain w)
    (hjobs : jobs.Pairwise (Apart w)) (hapart : ∀ b ∈ jobs, Apart w j b) :
    (after false jobs w).node j.out = w.node j.out := by
  refine (after_of_plain hroot hplain hjobs).node_of_direct hroot hdirect ?_ ?_
  · rintro q ⟨b, hb, rfl⟩
    exact (hapart b hb).not_below
  · rintro ⟨b, hb, hprefix⟩
    exact (hapart b hb).not_above hprefix

/-- Plain jobs that keep apart each come to what they come to alone. -/
theorem run_of_apart (hroot : w.Rooted) (hplain : ∀ j ∈ jobs, j.Plain w)
    (hread : ∀ j ∈ jobs, ∃ bytes, w.read j.abi = .ok bytes) (hapart : jobs.Pairwise (Apart w)) :
    outcomes false jobs w = jobs.map (fun j => j.outcome false w) ∧
      ∀ j ∈ jobs, (after false jobs w).node j.out = (j.leave false w).node j.out := by
  induction jobs generalizing w with
  | nil => exact ⟨rfl, nofun⟩
  | cons j rest ih =>
    rw [List.forall_mem_cons] at hplain hread
    rw [List.pairwise_cons] at hapart
    have hleave := hplain.1.leave hroot
    have hroot' := hleave.rooted hroot
    have hplain' : ∀ b ∈ rest, b.Plain (j.leave false w) := fun b hb =>
      (hplain.2 b hb).plain_leave hplain.1 hroot (hapart.1 b hb)
    have hread' : ∀ b ∈ rest, ∃ bytes, (j.leave false w).read b.abi = .ok bytes := by
      intro b hb
      obtain ⟨bytes, hbytes⟩ := hread.2 b hb
      exact ⟨bytes, hleave.read hbytes (Ne.symm (hapart.1 b hb).output_ne_abi) id⟩
    have hrest := hapart.2.imp fun h => h.evolves hleave
    obtain ⟨houtcomes, hnodes⟩ := ih hroot' hplain' hread' hrest
    have hsame (b : Job) (hb : b ∈ rest) :=
      (hplain.2 b hb).congr_leave hplain.1 hroot (hread.2 b hb) (hapart.1 b hb)
    refine ⟨?_, List.forall_mem_cons.2 ⟨?_, fun b hb => (hnodes b hb).trans (hsame b hb).2⟩⟩
    · rw [outcomes, houtcomes, List.map_cons, List.map_congr_left fun b hb => (hsame b hb).1]
    · exact node_after (hplain.1.direct.evolves hleave) hroot' hplain' hrest fun b hb =>
        (hapart.1 b hb).evolves hleave

end Job

end ContractBinding.Command
