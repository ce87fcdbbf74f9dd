import ContractBinding.Proofs.Disk.Evolution
import ContractBinding.Proofs.Disk.FileName
import ContractBinding.Proofs.Outcome

/-!
# Making directories

Making a directory, and those it lies in, fills the empty places on the way of a path and changes
nothing else. It fails only at a file on that way.
-/

namespace ContractBinding.Disk

namespace Tree

variable {t t' : Tree} {here q : Place} {parts : List String} {fault : Fault}

theorem evolves_makeDirectories (h : t.makeDirectories here parts = .ok t') :
    Evolves (fun _ => False) (fun _ => False) (OnWay here parts) t t' := by
  induction parts generalizing t here with
  | nil =>
    cases h
    exact .refl _
  | cons part rest ih =>
    have hlater (q : Place) (hq : OnWay (next here part) rest q) : OnWay here (part :: rest) q :=
      onWay_cons.2 (.inr hq)
    rw [makeDirectories] at h
    split at h
    · next hnone =>
      have hmade := (evolves_put_directory hnone).mono (fun _ => id) (fun _ _ _ => id)
        fun q _ (hq : q = next here part) => hlater q (hq ▸ onWay_here _ rest)
      exact hmade.trans ((ih h).mono (fun _ => id) (fun _ _ _ => id) fun q _ => hlater q)
    · exact (ih h).mono (fun _ => id) (fun _ _ _ => id) fun q _ => hlater q
    · cases h

/-- Afterwards there are directories on the whole way. -/
theorem directory_of_makeDirectories (hhere : t.get? here = some .directory)
    (h : t.makeDirectories here parts = .ok t') (hq : OnWay here parts q) :
    t'.get? q = some .directory := by
  induction parts generalizing t here with
  | nil =>
    cases h
    rwa [onWay_nil.1 hq]
  | cons part rest ih =>
    rcases onWay_cons.1 hq with rfl | hq
    · exact (evolves_makeDirectories h).directory hhere
    rw [makeDirectories] at h
    split at h
    · next hnone =>
      exact ih (get?_put_self t (by rintro hroot; simp [hroot] at hnone) _) h hq
    · next hdir => exact ih hdir h hq
    · cases h

/-- Only a file on the way keeps directories from being made. -/
theorem exists_file_of_makeDirectories (h : t.makeDirectories here parts = .error fault) :
    ∃ q bytes, OnWay here parts q ∧ t.get? q = some (.file bytes) := by
  induction parts generalizing t here with
  | nil => cases h
  | cons part rest ih =>
    rw [makeDirectories] at h
    split at h
    · next hnone =>
      obtain ⟨q, bytes, hq, hfile⟩ := ih h
      have hne : q ≠ next here part := by
        rintro rfl
        rw [get?_put_self t (by rintro hroot; simp [hroot] at hnone)] at hfile
        cases hfile
      exact ⟨q, bytes, onWay_cons.2 (.inr hq), by rwa [get?_put_of_ne t hne] at hfile⟩
    · obtain ⟨q, bytes, hq, hfile⟩ := ih h
      exact ⟨q, bytes, onWay_cons.2 (.inr hq), hfile⟩
    · next bytes hfile =>
      exact ⟨_, bytes, onWay_cons.2 (.inr (onWay_here _ rest)), hfile⟩

theorem Rooted.makeDirectories (hroot : t.Rooted) (hhere : t.get? here = some .directory)
    (h : t.makeDirectories here parts = .ok t') : t'.Rooted := by
  induction parts generalizing t here with
  | nil =>
    cases h
    exact hroot
  | cons part rest ih =>
    rw [Tree.makeDirectories] at h
    split at h
    · next hnone =>
      have hnot : t.get? (next here part) ≠ some .directory := by simp [hnone]
      have hnext := (hroot.next_cases hhere part).resolve_left hnot
      exact ih (hroot.put hnot ⟨here, part, hnext, hhere⟩ _)
        (get?_put_self t (by rintro hnil; simp [hnil] at hnone) _) h
    · next hdir => exact ih hroot hdir h
    · cases h

end Tree

namespace FilePath

variable {name : String} {here q : Place}

/-- The places on the way of what is above a path's last part. -/
def OnParentWay (path : FilePath) (here q : Place) : Prop :=
  ∃ parent, path.parent? = some parent ∧ Tree.OnWay (parent.start here) parent.parts q

/-- Above a name there are the places that its path passes. -/
theorem onParentWay_push (hn : IsName name) (p : FilePath) :
    (p.push name).OnParentWay here q ↔ q ∈ (p.push name).way here := by
  obtain ⟨parent, hparent, -, -, -, hway⟩ := exists_parent_push hn p here
  rw [← hway]
  constructor
  · rintro ⟨other, hother, hq⟩
    rw [hparent, Option.some.injEq] at hother
    rwa [hother]
  · exact fun hq => ⟨parent, hparent, hq⟩

end FilePath

namespace Workspace

open Outcome (bind_eq_ok_iff)
open Disk.Tree (OnWay)

variable {w w' : Workspace} {path : FilePath} {q : Place} {fault : Fault}

theorem Rooted.start (hroot : w.Rooted) (path : FilePath) :
    w.tree.get? (path.start w.here) = some .directory := by
  unfold FilePath.start
  split
  · exact Tree.get?_root _
  · exact hroot.2

theorem evolves_createDirectories (h : w.createDirectories path = .ok w') :
    w.Evolves (fun _ => False) (fun _ => False) (OnWay (path.start w.here) path.parts) w' := by
  unfold createDirectories at h
  split at h
  · cases h
    exact .refl w
  · obtain ⟨t, ht, hw⟩ := bind_eq_ok_iff.1 h
    cases hw
    refine ⟨rfl, rfl, rfl, Tree.evolves_makeDirectories ht, fun hroot => ?_⟩
    exact ⟨hroot.1.makeDirectories (hroot.start path) ht,
      (Tree.evolves_makeDirectories ht).directory hroot.2⟩

theorem drafts_createDirectories (h : w.createDirectories path = .ok w') :
    w'.drafts = w.drafts := by
  unfold createDirectories at h
  split at h
  · cases h
    rfl
  · obtain ⟨t, -, hw⟩ := bind_eq_ok_iff.1 h
    cases hw
    rfl

theorem directory_of_createDirectories (hroot : w.Rooted) (h : w.createDirectories path = .ok w')
    (hq : OnWay (path.start w.here) path.parts q) : w'.tree.get? q = some .directory := by
  unfold createDirectories at h
  split at h
  · next htext =>
    -- the empty path is the one part that says nothing
    cases h
    have hparts : path.parts = [""] := by simp [FilePath.parts, htext, Text.pieces]
    rw [hparts, Tree.onWay_cons, Tree.onWay_nil] at hq
    rcases hq with rfl | rfl <;> exact hroot.start path
  · obtain ⟨t, ht, hw⟩ := bind_eq_ok_iff.1 h
    cases hw
    exact Tree.directory_of_makeDirectories (hroot.start path) ht hq

theorem exists_file_of_createDirectories (h : w.createDirectories path = .error fault) :
    ∃ q bytes, OnWay (path.start w.here) path.parts q ∧ w.tree.get? q = some (.file bytes) := by
  unfold createDirectories at h
  split at h
  · cases h
  · cases ht : w.tree.makeDirectories (path.start w.here) path.parts with
    | error _ => exact Tree.exists_file_of_makeDirectories ht
    | ok t =>
      change (w.tree.makeDirectories (path.start w.here) path.parts >>= _) = _ at h
      rw [ht] at h
      cases h

end Workspace

end ContractBinding.Disk
