import ContractBinding.Proofs.Disk.Evolution
import ContractBinding.Proofs.Outcome

/-!
# Operations on a tree as steps

What an operation answers on a tree, and which tree it leaves.
-/

namespace ContractBinding.Disk

open Outcome (bind_eq_ok_iff)

variable {w w' : Workspace} {path : FilePath} {bytes : ByteArray} {code : String}

theorem fromUTF8?_eq_some_iff : String.fromUTF8? bytes = some code ↔ bytes = code.toUTF8 := by
  unfold String.fromUTF8?
  constructor
  · intro h
    split at h
    · rw [← Option.some.inj h]
      rfl
    · cases h
  · rintro rfl
    exact dif_pos code.isValidUTF8

namespace Workspace

/-- The text of a file. -/
def text (w : Workspace) (path : FilePath) : Except Fault String := do
  match String.fromUTF8? (← w.read path) with
  | none => .error .notText
  | some text => .ok text

/-- The text of a file, and none where there is nothing. -/
def current (w : Workspace) (path : FilePath) : Except Fault (Option String) :=
  match w.text path with
  | .ok text => .ok (some text)
  | .error .notFound => .ok none
  | .error fault => .error fault

theorem text_eq_ok_iff : w.text path = .ok code ↔ w.read path = .ok code.toUTF8 := by
  unfold Workspace.text
  rw [bind_eq_ok_iff]
  constructor
  · rintro ⟨bytes, hread, hbytes⟩
    split at hbytes
    · cases hbytes
    · next h =>
      cases hbytes
      rw [hread, fromUTF8?_eq_some_iff.1 h]
  · intro hread
    exact ⟨_, hread, by rw [fromUTF8?_eq_some_iff.2 rfl]⟩

theorem current_eq_some_iff : w.current path = .ok (some code) ↔
    w.read path = .ok code.toUTF8 := by
  rw [← text_eq_ok_iff]
  unfold current
  split <;> simp_all

/-- There is no text where the path leads nowhere. -/
theorem read_of_current_eq_none (h : w.current path = .ok none) :
    w.read path = .error .notFound := by
  unfold current Workspace.text at h
  cases hread : w.read path with
  | ok bytes =>
    simp only [hread, bind, Except.bind] at h
    cases hbytes : String.fromUTF8? bytes <;> simp [hbytes] at h
  | error fault =>
    simp only [hread, bind, Except.bind] at h
    cases fault <;> simp at h ⊢

theorem node_of_read_eq_notFound (h : w.read path = .error .notFound) :
    w.locate path = .error .notFound ∨
      w.locate path = .ok (path.place w.here) ∧ w.tree.get? (path.place w.here) = none := by
  unfold Workspace.read Workspace.node at h
  cases hlocate : w.locate path with
  | error fault =>
    simp only [hlocate, bind, Except.bind, Except.error.injEq] at h
    exact .inl (congrArg Except.error h)
  | ok place =>
    obtain rfl := (locate_eq_ok_iff.1 hlocate).2.2
    rcases hnode : w.tree.get? (path.place w.here) with _ | _ | _
    · exact .inr ⟨rfl, rfl⟩
    · simp [hlocate, hnode, bind, Except.bind] at h
    · simp [hlocate, hnode, bind, Except.bind] at h

section Run

variable {α β : Type} {act : Workspace → Except Fault (α × Workspace)} {a : α} {fault : Fault}
  {x : StateM Workspace α} {f : α → StateM Workspace β} {draft out : FilePath}

theorem run_bind_of_run (h : x.run w = (a, w')) : (x >>= f).run w = (f a).run w' := by
  rw [StateT.run_bind, h]
  rfl

theorem run_readText (w : Workspace) (path : FilePath) :
    (readText path : StateM Workspace _).run w = (w.text path, w) := by
  have hread : (Disk.read path : StateM Workspace _).run w = (w.read path, w) := rfl
  unfold readText text
  rw [run_bind_of_run hread]
  cases w.read path with
  | error fault => rfl
  | ok bytes =>
    simp only [bind, Except.bind]
    cases String.fromUTF8? bytes <;> rfl

theorem run_attempt_of_ok (h : act w = .ok (a, w')) :
    (attempt act).run w = (.ok a, w') := by
  show attempt act w = _
  simp [attempt, h]

theorem run_attempt_of_error (h : act w = .error fault) :
    (attempt act).run w = (.error fault, w) := by
  show attempt act w = _
  simp [attempt, h]

theorem run_createDirectories_of_ok (h : w.createDirectories path = .ok w') :
    (Disk.createDirectories path : StateM Workspace _).run w = (.ok (), w') :=
  run_attempt_of_ok (by rw [h]; rfl)

theorem run_createDirectories_of_error (h : w.createDirectories path = .error fault) :
    (Disk.createDirectories path : StateM Workspace _).run w = (.error fault, w) :=
  run_attempt_of_error (by rw [h]; rfl)

theorem run_write_of_ok (h : w.write path bytes = .ok w') :
    (Disk.write path bytes : StateM Workspace _).run w = (.ok (), w') :=
  run_attempt_of_ok (by rw [h]; rfl)

theorem run_write_of_error (h : w.write path bytes = .error fault) :
    (Disk.write path bytes : StateM Workspace _).run w = (.error fault, w) :=
  run_attempt_of_error (by rw [h]; rfl)

theorem run_removeFile_of_error (h : w.removeFile path = .error fault) :
    (Disk.removeFile path : StateM Workspace _).run w = (.error fault, w) :=
  run_attempt_of_error (by rw [h]; rfl)

/-- The place of the next draft depends on the process and on how many drafts it has had. -/
theorem run_nextDraft (path : FilePath) (w : Workspace) :
    (nextDraft path : StateM Workspace _).run w =
      (path.draft w.process w.drafts, { w with drafts := w.drafts + 1 }) := rfl

theorem run_rename_of_ok (h : w.rename draft out = .ok w') :
    (Disk.rename draft out : StateM Workspace _).run w = (.ok (), w') :=
  run_attempt_of_ok (by rw [h]; rfl)

theorem run_rename_of_error (h : w.rename draft out = .error fault) :
    (Disk.rename draft out : StateM Workspace _).run w = (.error fault, w) :=
  run_attempt_of_error (by rw [h]; rfl)

end Run

end Workspace

end ContractBinding.Disk
