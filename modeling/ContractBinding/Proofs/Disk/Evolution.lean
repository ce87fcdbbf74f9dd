import ContractBinding.Proofs.Disk.Way
import Mathlib.Data.List.Basic
import Mathlib.Data.List.Induction

/-!
# How trees change

Files are written in some places, files that stand in the places of drafts are taken away, and
directories are made in some places where there is no file, or no longer one. Nothing else changes.
A path that could be followed can still be followed afterwards, to the same place.
-/

namespace ContractBinding.Disk

namespace Tree

variable {t t' t'' : Tree} {files drafts directories : Place → Prop} {here p q : Place}
  {parts : List String}

@[simp]
theorem get?_root (t : Tree) : t.get? [] = some .directory := if_pos rfl

/-- What becomes of what is in a place. -/
inductive Becomes (files drafts directories : Place → Prop) (p : Place) :
    Option Node → Option Node → Prop
  | same (node : Option Node) : Becomes files drafts directories p node node
  | written {node : Option Node} (hp : files p) (hn : node ≠ some .directory) (bytes : ByteArray) :
    Becomes files drafts directories p node (some (.file bytes))
  | made (hp : directories p) : Becomes files drafts directories p none (some .directory)
  | taken {bytes : ByteArray} (hp : drafts p) :
    Becomes files drafts directories p (some (.file bytes)) none
  /-- A directory where a file was taken away. -/
  | cleared {bytes : ByteArray} (hdraft : drafts p) (hp : directories p) :
    Becomes files drafts directories p (some (.file bytes)) (some .directory)

/-- Files may have been written in some places, taken away from some, and directories made in
some. -/
def Evolves (files drafts directories : Place → Prop) (t t' : Tree) : Prop :=
  ∀ p, Becomes files drafts directories p (t.get? p) (t'.get? p)

namespace Becomes

variable {node node' node'' : Option Node}

theorem trans (h : Becomes files drafts directories p node node')
    (h' : Becomes files drafts directories p node' node'') :
    Becomes files drafts directories p node node'' := by
  cases h with
  | same => exact h'
  | written hp hn bytes =>
    cases h' with
    | same => exact .written hp hn bytes
    | written _ _ bytes => exact .written hp hn bytes
    | taken hdraft =>
      rcases node with _ | _ | _
      · exact .same none
      · exact absurd rfl hn
      · exact .taken hdraft
    | cleared hdraft hdir =>
      rcases node with _ | _ | _
      · exact .made hdir
      · exact absurd rfl hn
      · exact .cleared hdraft hdir
  | made hp =>
    cases h' with
    | same => exact .made hp
    | written _ hn _ => exact absurd rfl hn
  | taken hp =>
    cases h' with
    | same => exact .taken hp
    | written hfile _ bytes => exact .written hfile (by simp) bytes
    | made hdir => exact .cleared hp hdir
  | cleared hdraft hp =>
    cases h' with
    | same => exact .cleared hdraft hp
    | written _ hn _ => exact absurd rfl hn

end Becomes

namespace Evolves

theorem refl (t : Tree) : Evolves files drafts directories t t := fun _ => .same _

theorem trans (h : Evolves files drafts directories t t')
    (h' : Evolves files drafts directories t' t'') : Evolves files drafts directories t t'' :=
  fun p => (h p).trans (h' p)

/-- More places may change than have to. Only a file can be taken away, and directories are made
where there is nothing, or was a file that is taken away. -/
theorem mono {files' drafts' directories' : Place → Prop}
    (h : Evolves files drafts directories t t') (hfiles : ∀ p, files p → files' p)
    (hdrafts : ∀ p bytes, t.get? p = some (.file bytes) → drafts p → drafts' p)
    (hdirectories : ∀ p, t.get? p = none ∨ drafts p → directories p → directories' p) :
    Evolves files' drafts' directories' t t' := by
  intro p
  have hnode := h p
  have hdraft := hdrafts p
  have hdir := hdirectories p
  generalize t.get? p = node, t'.get? p = node' at *
  cases hnode with
  | same => exact .same _
  | written hp hn bytes => exact .written (hfiles p hp) hn bytes
  | made hp => exact .made (hdir (.inl rfl) hp)
  | taken hp => exact .taken (hdraft _ rfl hp)
  | cleared hdraft' hp => exact .cleared (hdraft _ rfl hdraft') (hdir (.inr hdraft') hp)

theorem directory (h : Evolves files drafts directories t t') (hp : t.get? p = some .directory) :
    t'.get? p = some .directory := by
  have hnode := h p
  rw [hp] at hnode
  generalize t'.get? p = node' at *
  cases hnode with
  | same => rfl
  | written _ hn _ => exact absurd rfl hn

/-- What is empty was empty, unless a file was taken away. -/
theorem eq_none (h : Evolves files drafts directories t t') (hp : t'.get? p = none)
    (hdraft : ¬ drafts p) : t.get? p = none := by
  have hnode := h p
  rw [hp] at hnode
  generalize t.get? p = node at *
  cases hnode with
  | same => rfl
  | taken hp => exact absurd hp hdraft

/-- A file that is not taken away is still one. -/
theorem exists_file (h : Evolves files drafts directories t t') {bytes : ByteArray}
    (hp : t.get? p = some (.file bytes)) (hdraft : ¬ drafts p) :
    ∃ bytes', t'.get? p = some (.file bytes') := by
  have hnode := h p
  rw [hp] at hnode
  generalize t'.get? p = node' at *
  cases hnode with
  | same => exact ⟨bytes, rfl⟩
  | written _ _ bytes' => exact ⟨bytes', rfl⟩
  | taken hp => exact absurd hp hdraft
  | cleared hp _ => exact absurd hp hdraft

/-- Where no file is written, a file is one that was there. -/
theorem file_of_file (h : Evolves files drafts directories t t') (hp : ¬ files p)
    {bytes : ByteArray} (hfile : t'.get? p = some (.file bytes)) :
    t.get? p = some (.file bytes) := by
  have hnode := h p
  rw [hfile] at hnode
  generalize t.get? p = node at *
  cases hnode with
  | same => rfl
  | written hp' _ _ => exact absurd hp' hp

/-- Where no file is written and none is taken away, the files are the same. -/
theorem file_iff (h : Evolves files drafts directories t t') (hp : ¬ files p) (hdraft : ¬ drafts p)
    {bytes : ByteArray} : t'.get? p = some (.file bytes) ↔ t.get? p = some (.file bytes) := by
  refine ⟨h.file_of_file hp, fun hfile => ?_⟩
  have hnode := h p
  rw [hfile] at hnode
  generalize t'.get? p = node' at *
  cases hnode with
  | same => rfl
  | written hp' _ _ => exact absurd hp' hp
  | taken hp => exact absurd hp hdraft
  | cleared hp _ => exact absurd hp hdraft

/-- Where nothing is written, taken away or made, nothing changes. -/
theorem get?_eq (h : Evolves files drafts directories t t') (hfiles : ¬ files p)
    (hdraft : ¬ drafts p) (hdirectories : ¬ directories p) : t'.get? p = t.get? p := by
  have hnode := h p
  generalize t.get? p = node, t'.get? p = node' at *
  cases hnode with
  | same => rfl
  | written hp _ _ => exact absurd hp hfiles
  | made hp => exact absurd hp hdirectories
  | taken hp => exact absurd hp hdraft
  | cleared hp _ => exact absurd hp hdraft

end Evolves

theorem evolves_put_file (hp : t.get? p ≠ some .directory) (bytes : ByteArray) :
    Evolves (· = p) (fun _ => False) (fun _ => False) t (t.put p (.file bytes)) := by
  intro q
  by_cases hq : q = p
  · subst hq
    rw [get?_put_self t (by rintro rfl; exact hp (get?_root t))]
    exact .written (by rfl) hp bytes
  · rw [get?_put_of_ne t hq]
    exact .same _

theorem evolves_put_directory (hp : t.get? p = none) :
    Evolves (fun _ => False) (fun _ => False) (· = p) t (t.put p .directory) := by
  intro q
  by_cases hq : q = p
  · subst hq
    rw [get?_put_self t (by rintro rfl; simp at hp), hp]
    exact .made (by rfl)
  · rw [get?_put_of_ne t hq]
    exact .same _

theorem evolves_erase (hp : t.get? p ≠ some .directory) :
    Evolves (fun _ => False) (· = p) (fun _ => False) t (t.erase p) := by
  intro q
  by_cases hq : q = p
  · subst hq
    rw [get?_erase_self t (by rintro rfl; exact hp (get?_root t))]
    rcases hnode : t.get? q with _ | _ | _
    · exact .same none
    · exact absurd hnode hp
    · exact .taken rfl
  · rw [get?_erase_of_ne t hq]
    exact .same _

/-- Whatever is in a place lies in a directory. -/
def Rooted (t : Tree) : Prop :=
  ∀ place name, t.get? (place ++ [name]) ≠ none → t.get? place = some .directory

namespace Rooted

/-- Something new in a directory, or a file with new bytes. -/
theorem put (hroot : t.Rooted) (hp : t.get? p ≠ some .directory)
    (hparent : ∃ place name, p = place ++ [name] ∧ t.get? place = some .directory)
    (node : Node) : (t.put p node).Rooted := by
  intro place name hnode
  obtain ⟨above, last, hconcat, hdir⟩ := hparent
  have hplace : t.get? place = some .directory := by
    by_cases hq : place ++ [name] = p
    · rw [hconcat] at hq
      rw [(List.append_inj' hq rfl).1]
      exact hdir
    · rw [get?_put_of_ne t hq] at hnode
      exact hroot place name hnode
  rwa [get?_put_of_ne t (by rintro rfl; exact hp hplace)]

/-- A tree without one of its files. -/
theorem erase (hroot : t.Rooted) (hp : t.get? p ≠ some .directory) : (t.erase p).Rooted := by
  intro place name hnode
  have hne : place ++ [name] ≠ p := by
    rintro rfl
    exact hnode (get?_erase_self t (by simp))
  rw [get?_erase_of_ne t hne] at hnode
  have hplace := hroot place name hnode
  rwa [get?_erase_of_ne t (by rintro rfl; exact hp hplace)]

/-- Below an empty place there is nothing. -/
theorem eq_none_of_prefix (hroot : t.Rooted) (hp : t.get? p = none) (hq : p <+: q) :
    t.get? q = none := by
  obtain ⟨names, rfl⟩ := hq
  induction names using List.reverseRecOn with
  | nil => simpa using hp
  | append_singleton names name ih =>
    by_contra hnode
    rw [← List.append_assoc] at hnode
    rw [hroot _ name hnode] at ih
    simp at ih

/-- Where a part leads from a directory, there is a directory, or the part is a name in it. -/
theorem next_cases (hroot : t.Rooted) (hhere : t.get? here = some .directory) (part : String) :
    t.get? (next here part) = some .directory ∨ next here part = here ++ [part] := by
  unfold next
  split
  · exact .inl hhere
  · split
    · left
      rcases List.eq_nil_or_concat' here with rfl | ⟨place, name, rfl⟩
      · exact get?_root t
      · rw [List.dropLast_concat]
        exact hroot place name (by rw [hhere]; simp)
    · exact .inr rfl

/-- What was reached and is no directory lies in one. -/
theorem exists_parent_of_walk (hroot : t.Rooted) (hparts : parts ≠ [])
    (hw : t.walk here parts = .ok p) (hp : t.get? p ≠ some .directory) :
    ∃ place name, p = place ++ [name] ∧ t.get? place = some .directory := by
  obtain ⟨hpassed, hgoal⟩ := (walk_eq_ok_iff t).1 hw
  obtain ⟨front, part, rfl⟩ := (List.eq_nil_or_concat' parts).resolve_left hparts
  have hfront : t.get? (goal here front) = some .directory :=
    hpassed _ (mem_passed_concat.2 (.inr rfl))
  rw [goal_append] at hgoal
  replace hgoal : p = next (goal here front) part := hgoal
  rcases hroot.next_cases hfront part with hdir | hconcat
  · exact absurd (hgoal ▸ hdir) hp
  · exact ⟨_, part, hgoal.trans hconcat, hfront⟩

end Rooted

end Tree

namespace Workspace

variable {w w' w'' : Workspace} {files drafts directories : Place → Prop} {path : FilePath}
  {p : Place} {bytes : ByteArray}

/-- Every place lies in a directory, and the working directory is one. -/
def Rooted (w : Workspace) : Prop := w.tree.Rooted ∧ w.tree.get? w.here = some .directory

/-- A workspace of the same process, whose tree may have changed in some places and is still
rooted. -/
structure Evolves (files drafts directories : Place → Prop) (w w' : Workspace) : Prop where
  here : w'.here = w.here
  process : w'.process = w.process
  unnamed : w'.unnamed = w.unnamed
  tree : w.tree.Evolves files drafts directories w'.tree
  rooted : w.Rooted → w'.Rooted

namespace Evolves

theorem refl (w : Workspace) : Evolves files drafts directories w w :=
  ⟨rfl, rfl, rfl, .refl _, id⟩

theorem trans (h : Evolves files drafts directories w w')
    (h' : Evolves files drafts directories w' w'') : Evolves files drafts directories w w'' :=
  ⟨h'.here.trans h.here, h'.process.trans h.process, h'.unnamed.trans h.unnamed,
    h.tree.trans h'.tree, h'.rooted ∘ h.rooted⟩

theorem mono {files' drafts' directories' : Place → Prop}
    (h : Evolves files drafts directories w w') (hfiles : ∀ p, files p → files' p)
    (hdrafts : ∀ p bytes, w.tree.get? p = some (.file bytes) → drafts p → drafts' p)
    (hdirectories : ∀ p, w.tree.get? p = none ∨ drafts p → directories p → directories' p) :
    Evolves files' drafts' directories' w w' :=
  ⟨h.here, h.process, h.unnamed, h.tree.mono hfiles hdrafts hdirectories, h.rooted⟩

end Evolves

/-- A path leads to its place where it passes nothing but directories; the empty path leads
nowhere. -/
theorem locate_eq_ok_iff : w.locate path = .ok p ↔ path.text ≠ "" ∧
    (∀ q ∈ path.way w.here, w.tree.get? q = some .directory) ∧ p = path.place w.here := by
  unfold locate
  split
  · next h => simp [h]
  · next h =>
    rw [Tree.walk_eq_ok_iff]
    exact (and_iff_right h).symm

theorem node_eq_ok_iff {node : Node} : w.node path = .ok node ↔
    w.locate path = .ok (path.place w.here) ∧ w.tree.get? (path.place w.here) = some node := by
  unfold Workspace.node
  cases hl : w.locate path with
  | error fault => simp [bind, Except.bind]
  | ok p =>
    rw [(locate_eq_ok_iff.1 hl).2.2]
    cases hn : w.tree.get? (path.place w.here) <;> simp [bind, Except.bind, hn]

theorem node_of_locate_eq_error {fault : Fault} (h : w.locate path = .error fault) :
    w.node path = .error fault := by
  rw [Workspace.node, h]
  rfl

/-- A path that leads to an empty place finds nothing. -/
theorem node_of_eq_none (h : w.locate path = .ok p) (hnone : w.tree.get? p = none) :
    w.node path = .error .notFound := by
  simp [Workspace.node, h, hnone, bind, Except.bind]

/-- What a path finds depends on where it leads and on what is there. -/
theorem node_congr (hlocate : w'.locate path = w.locate path)
    (hplace : w'.tree.get? (path.place w.here) = w.tree.get? (path.place w.here)) :
    w'.node path = w.node path := by
  unfold Workspace.node
  rw [hlocate]
  cases hl : w.locate path with
  | error fault => rfl
  | ok p =>
    obtain rfl := (locate_eq_ok_iff.1 hl).2.2
    simp only [bind, Except.bind, hplace]

theorem read_eq_ok_iff : w.read path = .ok bytes ↔ w.node path = .ok (.file bytes) := by
  unfold Workspace.read
  cases hn : w.node path with
  | error fault => simp [bind, Except.bind]
  | ok node => cases node <;> simp [bind, Except.bind]

namespace Evolves

theorem locate (h : Evolves files drafts directories w w') (hl : w.locate path = .ok p) :
    w'.locate path = .ok p := by
  rw [locate_eq_ok_iff] at hl ⊢
  rw [h.here]
  exact ⟨hl.1, fun q hq => h.tree.directory (hl.2.1 q hq), hl.2.2⟩

/-- A file that is neither written nor taken away can still be read. -/
theorem read (h : Evolves files drafts directories w w') (hread : w.read path = .ok bytes)
    (hp : ¬ files (path.place w.here)) (hdraft : ¬ drafts (path.place w.here)) :
    w'.read path = .ok bytes := by
  rw [read_eq_ok_iff, node_eq_ok_iff] at hread ⊢
  rw [h.here]
  exact ⟨h.locate hread.1, (h.tree.file_iff hp hdraft).2 hread.2⟩

end Evolves

end Workspace

end ContractBinding.Disk
