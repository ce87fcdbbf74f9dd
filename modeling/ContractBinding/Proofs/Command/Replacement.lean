import ContractBinding.Command.Output
import ContractBinding.Proofs.Disk.Directories
import ContractBinding.Proofs.Disk.Drafts
import ContractBinding.Proofs.Disk.Steps

/-!
# What becomes of an output

An output that holds the code is left alone, and a check only compares. Otherwise the output is
replaced: nothing is written, or the draft stays beside the output, or the output holds the code.
-/

namespace ContractBinding.Command

open Disk (FilePath IsName Node Place Workspace)
open Disk.Workspace (run_bind_of_run run_createDirectories_of_ok run_createDirectories_of_error
  run_nextDraft run_readText run_removeFile_of_error run_write_of_ok run_write_of_error
  run_rename_of_ok run_rename_of_error)

/-- What replacing a file comes to. -/
inductive Replaced (out : FilePath) (code : String) (w : Workspace) :
    Except Fault Unit → Workspace → Prop
  /-- No file is written. -/
  | refused {fault : Fault} {w' : Workspace} (hfault : ∀ path reason, fault ≠ .rename path reason)
      (h : w.Evolves (fun _ => False) (fun _ => False) (out.OnParentWay w.here) w') :
    Replaced out code w (.error fault) w'
  /-- The draft stays. -/
  | stranded {reason : Disk.Fault} {w' : Workspace}
      (h : w.Evolves (· = w.draftPlace out) (fun _ => False) (out.OnParentWay w.here) w') :
    Replaced out code w (.error (.rename out reason)) w'
  /-- The file holds the text, and there is no draft. -/
  | done {w' : Workspace}
      (hnamed : ∃ (p : FilePath) (name : String), IsName name ∧ out = p.push name)
      (h : w.Evolves (· = out.place w.here) (· = w.draftPlace out) (out.OnParentWay w.here) w')
      (hdraft : w'.tree.get? (w.draftPlace out) = none) (hout : w'.read out = .ok code.toUTF8) :
    Replaced out code w (.ok ()) w'

variable {out draft : FilePath} {code : String} {w w' : Workspace} {check : Bool} {node : Node}

/-- A draft is put in place at once or not at all: what keeps it from being renamed keeps the target
from being removed. -/
theorem run_putInPlace (hnode : w.node draft = .ok node) :
    (putInPlace draft out : StateM Workspace _).run w =
      match w.rename draft out with
      | .ok w' => (.ok (), w')
      | .error fault => (.error fault, w) := by
  unfold putInPlace
  cases hrename : w.rename draft out with
  | ok w' =>
    rw [run_bind_of_run (run_rename_of_ok hrename)]
    rfl
  | error fault =>
    obtain ⟨_, hremove⟩ := Disk.Workspace.removeFile_of_rename_eq_error hnode hrename
    rw [run_bind_of_run (run_rename_of_error hrename)]
    dsimp only
    rw [run_bind_of_run (run_removeFile_of_error hremove), run_rename_of_error hrename]

/-- Replacing a file once the directories are made. -/
private def finish (out : FilePath) (code : String) : StateM Workspace (Except Fault Unit) := do
  let draft ← Disk.nextDraft out
  match ← Disk.write draft code.toUTF8 with
  | .error fault => return .error (.writeDraft draft fault)
  | .ok () => return (← putInPlace draft out).mapError (.rename out)

private theorem run_finish (out : FilePath) (code : String) (w : Workspace) :
    (finish out code).run w =
      match { w with drafts := w.drafts + 1 }.write (out.draft w.process w.drafts) code.toUTF8 with
      | .error fault => (.error (.writeDraft (out.draft w.process w.drafts) fault),
          { w with drafts := w.drafts + 1 })
      | .ok w₁ => match w₁.rename (out.draft w.process w.drafts) out with
        | .error fault => (.error (.rename out fault), w₁)
        | .ok w₂ => (.ok (), w₂) := by
  unfold finish
  rw [run_bind_of_run (run_nextDraft out w)]
  cases hwrite : { w with drafts := w.drafts + 1 }.write (out.draft w.process w.drafts)
      code.toUTF8 with
  | error fault =>
    rw [run_bind_of_run (run_write_of_error hwrite)]
    rfl
  | ok w₁ =>
    rw [run_bind_of_run (run_write_of_ok hwrite)]
    dsimp only
    rw [run_bind_of_run (run_putInPlace (Disk.Workspace.node_of_write hwrite))]
    cases w₁.rename (out.draft w.process w.drafts) out <;> rfl

private theorem replaced_finish
    (h : w.Evolves (fun _ => False) (fun _ => False) (out.OnParentWay w.here) w')
    (hdrafts : w'.drafts = w.drafts) :
    Replaced out code w ((finish out code).run w').1 ((finish out code).run w').2 := by
  have hfiles {files drafts : Place → Prop} :
      w.Evolves files drafts (out.OnParentWay w.here) { w' with drafts := w'.drafts + 1 } :=
    (h.mono (fun _ => False.elim) (fun _ _ _ => False.elim) fun _ _ => id).trans
      ⟨rfl, rfl, rfl, .refl _, id⟩
  have hplace : (out.draft w'.process w'.drafts).place w'.here = w.draftPlace out := by
    rw [h.process, hdrafts, h.here]
    rfl
  rw [run_finish]
  cases hwrite : { w' with drafts := w'.drafts + 1 }.write (out.draft w'.process w'.drafts)
      code.toUTF8 with
  | error fault => exact .refused (fun _ _ => nofun) hfiles
  | ok w₁ =>
    dsimp only
    cases hrename : w₁.rename (out.draft w'.process w'.drafts) out with
    | error reason =>
      have hdraft := Disk.Workspace.evolves_write hwrite
      dsimp only at hdraft
      rw [hplace] at hdraft
      exact .stranded (hfiles.trans (hdraft.mono (fun _ => id) (fun _ _ _ => False.elim)
        fun _ _ => False.elim))
    | ok w₂ =>
      obtain ⟨hout, hnode, hdraft⟩ := Disk.Workspace.evolves_rename hwrite hrename
      obtain ⟨p, name, hn, rfl⟩ := Disk.Workspace.exists_push_of_rename hwrite hrename
      replace hdraft := hdraft (FilePath.place_draft_push_ne hn p w'.here)
      dsimp only at hout hdraft
      rw [hplace] at hdraft hout
      have htarget : (p.push name).place w'.here = (p.push name).place w.here := by rw [h.here]
      rw [htarget] at hout
      exact .done ⟨p, name, hn, rfl⟩ (hfiles.trans (hout.mono (fun _ => id) (fun _ _ _ => id)
        fun _ _ => False.elim)) hdraft (Disk.Workspace.read_eq_ok_iff.2 hnode)

theorem replaced (out : FilePath) (code : String) (w : Workspace) :
    Replaced out code w ((replaceFile out code : StateM Workspace _).run w).1
      ((replaceFile out code : StateM Workspace _).run w).2 := by
  unfold replaceFile
  cases hparent : out.parent? with
  | none => exact replaced_finish (.refl w) rfl
  | some parent =>
    cases hmake : w.createDirectories parent with
    | error fault =>
      simp only [run_bind_of_run (run_createDirectories_of_error hmake)]
      exact .refused (fun _ _ => nofun) (.refl w)
    | ok w' =>
      simp only [run_bind_of_run (run_createDirectories_of_ok hmake)]
      exact replaced_finish ((Disk.Workspace.evolves_createDirectories hmake).mono (fun _ => id)
        (fun _ _ _ => id) fun q _ hq => ⟨parent, hparent, hq⟩)
        (Disk.Workspace.drafts_createDirectories hmake)

/-- A file is replaced where its path ends in a name, passes no file and not the place of the draft,
and where neither it nor the draft is a directory. -/
theorem replaceFile_eq_ok {name : String} (hn : IsName name) (p : FilePath) (hroot : w.Rooted)
    (hway : ∀ q ∈ (p.push name).way w.here, q ≠ (p.push name).place w.here ∧
      q ≠ w.draftPlace (p.push name) ∧ ∀ bytes, w.tree.get? q ≠ some (.file bytes))
    (hout : w.tree.get? ((p.push name).place w.here) ≠ some .directory)
    (hdraft : w.tree.get? (w.draftPlace (p.push name)) ≠ some .directory) :
    ((replaceFile (p.push name) code : StateM Workspace _).run w).1 = .ok () := by
  obtain ⟨parent, hparent, -, -, -, hsame⟩ := FilePath.exists_parent_push hn p w.here
  cases hmake : w.createDirectories parent with
  | error fault =>
    obtain ⟨q, bytes, hq, hfile⟩ := Workspace.exists_file_of_createDirectories hmake
    exact absurd hfile ((hway q ((hsame q).1 hq)).2.2 bytes)
  | ok w' =>
    have hmade := Workspace.evolves_createDirectories hmake
    have hdirectories (q : Place) (hq : q ∈ (p.push name).way w'.here) :
        w'.tree.get? q = some .directory := by
      rw [hmade.here] at hq
      exact Workspace.directory_of_createDirectories hroot hmake ((hsame q).2 hq)
    have hunmade {q : Place} (hq : q ∉ (p.push name).way w.here) :
        w'.tree.get? q = w.tree.get? q := hmade.tree.get?_eq id id fun hon => hq ((hsame q).1 hon)
    have hout' : w'.tree.get? ((p.push name).place w'.here) ≠ some .directory := by
      rw [hmade.here, hunmade fun hq => (hway _ hq).1 rfl]
      exact hout
    have hdraft' : w'.tree.get? (((p.push name).draft w'.process w'.drafts).place w'.here) ≠
        some .directory := by
      rw [hmade.here, hmade.process, Workspace.drafts_createDirectories hmake,
        ← Workspace.draftPlace, hunmade fun hq => (hway _ hq).2.1 rfl]
      exact hdraft
    obtain ⟨w₁, w₂, hwrite, hrename⟩ := Workspace.exists_rename
      (w := { w' with drafts := w'.drafts + 1 }) hn p hdirectories hout' hdraft' code.toUTF8
    unfold replaceFile
    simp only [hparent, run_bind_of_run (run_createDirectories_of_ok hmake)]
    show ((finish (p.push name) code).run w').1 = .ok ()
    rw [run_finish]
    simp only [hwrite, hrename]

/-- What bringing an output up to date comes to. -/
inductive Synced (out : FilePath) (code : String) (check : Bool) (w : Workspace) :
    Except Fault Outcome → Workspace → Prop
  | unread {fault : Disk.Fault} (h : w.current out = .error fault) :
    Synced out code check w (.error (.readOutput out fault)) w
  | unchanged (h : w.current out = .ok (some code)) : Synced out code check w (.ok .unchanged) w
  | drift {text : Option String} (hcheck : check = true) (h : w.current out = .ok text)
      (htext : text ≠ some code) :
    Synced out code check w (.ok .drift) w
  | replaced {text : Option String} {result : Except Fault Unit} {w' : Workspace}
      (hcheck : check = false) (h : w.current out = .ok text) (htext : text ≠ some code)
      (hresult : Replaced out code w result w') :
    Synced out code check w (result.map fun _ => .written) w'

/-- What bringing an output up to date does depends on what is read there first. -/
theorem run_syncOutput (out : FilePath) (code : String) (check : Bool) (w : Workspace) :
    (syncOutput out code check : StateM Workspace _).run w = match w.current out with
      | .error fault => (.error (.readOutput out fault), w)
      | .ok text =>
        if text = some code then (.ok .unchanged, w)
        else if check then (.ok .drift, w)
        else (((replaceFile out code : StateM Workspace _).run w).1.map fun _ => .written,
          ((replaceFile out code : StateM Workspace _).run w).2) := by
  have hread : (syncOutput out code check : StateM Workspace _).run w = match w.current out with
      | .error fault => (.error (.readOutput out fault), w)
      | .ok text =>
        (if text = some code then return .ok .unchanged
        else if check then return .ok .drift
        else return (← replaceFile out code).map fun _ => .written : StateM Workspace _).run w := by
    unfold syncOutput Workspace.current
    rw [run_bind_of_run (run_readText w out)]
    rcases w.text out with (_ | _ | _ | _ | _ | _) | _ <;> rfl
  rw [hread]
  cases w.current out with
  | error fault => rfl
  | ok text =>
    by_cases htext : text = some code
    · simp only [htext, if_true]
      rfl
    · simp only [htext, if_false]
      cases check <;> rfl

theorem synced (out : FilePath) (code : String) (check : Bool) (w : Workspace) :
    Synced out code check w ((syncOutput out code check : StateM Workspace _).run w).1
      ((syncOutput out code check : StateM Workspace _).run w).2 := by
  rw [run_syncOutput]
  cases h : w.current out with
  | error fault => exact .unread h
  | ok text =>
    by_cases htext : text = some code
    · simp only [htext, if_true]
      exact .unchanged (htext ▸ h)
    · simp only [htext, if_false]
      cases check with
      | true => exact .drift rfl h htext
      | false => exact .replaced rfl h htext (replaced out code w)

end ContractBinding.Command
