import ContractBinding.Proofs.Batch.Jobs
import ContractBinding.Proofs.Disk.Files
import Mathlib.Data.List.Nodup
import Mathlib.Order.Defs.LinearOrder
import Mathlib.Data.String.Basic

/-!
# The files that a batch selects

A configuration chooses relative paths. It selects the files below its root whose relative paths it
chooses, each once and in the order of these paths, whatever else there is on the disk.
-/

namespace ContractBinding.Batch

open Disk (FilePath IsName Place Workspace)

/-- The names of a file with slashes between them. -/
def relativeOf (names : List String) : String := "/".intercalate names

/-- Proper names can be read back from their relative path. -/
theorem relativeOf_injOn {names others : List String} (hnames : ∀ name ∈ names, IsName name)
    (hothers : ∀ name ∈ others, IsName name) (h : relativeOf names = relativeOf others) :
    names = others := by
  have hread {l : List String} (hl : ∀ name ∈ l, IsName name) :=
    String.toList_split_intercalate (c := '/') (l := l) fun name hname => (hl name hname).2.2.2
  have hsplit : (if names = [] then [""] else names) = if others = [] then [""] else others := by
    rw [← hread hnames, ← hread hothers]
    exact congrArg (fun s : String => (s.split '/').toList.map fun x => x.copy) h
  have hproper {l : List String} (hl : ∀ name ∈ l, IsName name) : [""] ≠ l := by
    rintro rfl
    exact (hl "" (by simp)).1 rfl
  split at hsplit <;> split at hsplit
  · simp_all
  · exact absurd hsplit (hproper hothers)
  · exact absurd hsplit.symm (hproper hnames)
  · exact hsplit

/-- A relative path that a configuration includes and does not exclude. -/
def Config.Chooses (c : Config) (relative : String) : Prop :=
  ∃ included excluded, patterns .included c.included = .ok included ∧
    patterns .excluded c.excluded = .ok excluded ∧
    Glob.anyMatches included relative = true ∧ Glob.anyMatches excluded relative = false

theorem chooses_iff (c : Config) (relative : String) : c.Chooses relative ↔
    ((patterns .included c.included).toOption.any (Glob.anyMatches · relative) &&
      (patterns .excluded c.excluded).toOption.any (!Glob.anyMatches · relative)) = true := by
  unfold Config.Chooses
  rcases patterns .included c.included with _ | _ <;>
    rcases patterns .excluded c.excluded with _ | _ <;> simp [Except.toOption]

instance (c : Config) (relative : String) : Decidable (c.Chooses relative) :=
  decidable_of_decidable_of_iff (chooses_iff c relative).symm

/-- The configuration of the root directory with every default, but without hashes. -/
def Config.ofRoot : Config := { root := ⟨"/"⟩, settings := { showsHash := false } }

example : Config.ofRoot.Chooses "b/a.abi" := by decide +kernel
example : ¬ Config.ofRoot.Chooses "b/node_modules/a.abi" := by decide +kernel

/-- The files `a.abi` and `b.abi` of the root directory. -/
def twoFiles : List Selected := [⟨["a.abi"], ⟨"/a.abi"⟩⟩, ⟨["b.abi"], ⟨"/b.abi"⟩⟩]

variable {c : Config} {w w' : Workspace} {s : Selected} {selected : List Selected}

/-- The names of files can be told unless one of them is no text. -/
theorem namesOf_append (files : List (List String)) (unnamed : List Place) :
    namesOf (files.map some ++ unnamed.map fun _ => none) =
      if unnamed = [] then .ok files else .error .unnamedFile := by
  unfold namesOf
  induction files with
  | nil => cases unnamed <;> rfl
  | cons names rest ih =>
    rw [List.map_cons, List.cons_append, List.mapM_cons, ih]
    split <;> rfl

/-- Selecting needs patterns that can be read, and files that can all be named. -/
theorem selection_eq (c : Config) (w : Workspace) : c.selection w =
    match patterns .included c.included, patterns .excluded c.excluded with
    | .error fault, _ => .error fault
    | _, .error fault => .error fault
    | .ok included, .ok excluded =>
      if w.unnamedBelow c.root = [] then .ok (select c included excluded (w.filesBelow c.root))
      else .error .unnamedFile := by
  have hfiles : (Disk.filesBelow c.root : StateM Workspace _).run w =
      ((w.filesBelow c.root).map some ++ (w.unnamedBelow c.root).map fun _ => none, w) := rfl
  unfold Config.selection selectFiles
  cases patterns .included c.included with
  | error fault => rfl
  | ok included =>
    cases patterns .excluded c.excluded with
    | error fault => rfl
    | ok excluded =>
      dsimp only
      rw [Workspace.run_bind_of_run hfiles, namesOf_append]
      split <;> rfl

theorem selection_eq_ok_iff : c.selection w = .ok selected ↔
    ∃ included excluded, patterns .included c.included = .ok included ∧
      patterns .excluded c.excluded = .ok excluded ∧ w.unnamedBelow c.root = [] ∧
      selected = select c included excluded (w.filesBelow c.root) := by
  rw [selection_eq]
  cases patterns .included c.included with
  | error fault => exact iff_of_false nofun (by simp)
  | ok included =>
    cases patterns .excluded c.excluded with
    | error fault => exact iff_of_false nofun (by simp)
    | ok excluded =>
      dsimp only
      split
      · next h => simp [h, eq_comm]
      · next h => simp [h]

/-- One file below the root that cannot be named ends a batch before it has an entry, whatever the
patterns say of that file. -/
theorem run_of_unnamed {included excluded : List Glob.Pattern}
    (hincluded : patterns .included c.included = .ok included)
    (hexcluded : patterns .excluded c.excluded = .ok excluded)
    (hunnamed : w.unnamedBelow c.root ≠ []) (check : Bool) :
    (run c check : StateM Workspace _).run w = (.error .unnamedFile, w) := by
  refine run_of_selection_eq_error ?_
  rw [selection_eq, hincluded, hexcluded]
  exact if_neg hunnamed

/-- A selection consists of the files below the root that the configuration chooses. -/
theorem mem_selection_iff (h : c.selection w = .ok selected) :
    s ∈ selected ↔ s.path = s.names.foldl FilePath.push c.root ∧
      s.names ∈ w.filesBelow c.root ∧ c.Chooses s.relative := by
  obtain ⟨included, excluded, hincluded, hexcluded, -, rfl⟩ := selection_eq_ok_iff.1 h
  simp only [select, List.mem_mergeSort, List.mem_filter, List.mem_map, Bool.and_eq_true,
    Bool.not_eq_true', Config.Chooses, hincluded, hexcluded, Except.ok.injEq]
  constructor
  · rintro ⟨⟨names, hnames, rfl⟩, hin, hout⟩
    exact ⟨rfl, hnames, included, excluded, rfl, rfl, hin, hout⟩
  · rintro ⟨hpath, hnames, _, _, rfl, rfl, hin, hout⟩
    exact ⟨⟨s.names, hnames, by rw [← hpath]⟩, hin, hout⟩

theorem isName_of_mem_selection (hw : w.WellFormed) (h : c.selection w = .ok selected)
    (hs : s ∈ selected) : ∀ name ∈ s.names, IsName name :=
  hw.isName_of_mem_filesBelow ((mem_selection_iff h).1 hs).2.1

theorem nodup_selection (h : c.selection w = .ok selected) : selected.Nodup := by
  obtain ⟨included, excluded, -, -, -, rfl⟩ := selection_eq_ok_iff.1 h
  refine (List.mergeSort_perm _ _).nodup_iff.2 (List.Nodup.filter _ ?_)
  refine (w.nodup_filesBelow c.root).map fun names names' heq => ?_
  exact congrArg Selected.names heq

theorem sorted_selection (h : c.selection w = .ok selected) :
    selected.Pairwise fun a b => a.relative ≤ b.relative := by
  obtain ⟨included, excluded, -, -, -, rfl⟩ := selection_eq_ok_iff.1 h
  refine (List.pairwise_mergeSort ?_ ?_ _).imp fun hle => of_decide_eq_true hle
  · intro a b c hab hbc
    simp only [decide_eq_true_eq] at hab hbc ⊢
    exact le_trans hab hbc
  · intro a b
    simpa using le_total a.relative b.relative

/-- Selected files are equal where their relative paths are. -/
theorem eq_of_relative_eq (hw : w.WellFormed) (h : c.selection w = .ok selected) {a b : Selected}
    (ha : a ∈ selected) (hb : b ∈ selected) (hab : a.relative = b.relative) :
    a = b := by
  have hnames := relativeOf_injOn (isName_of_mem_selection hw h ha)
    (isName_of_mem_selection hw h hb) hab
  have hpath := ((mem_selection_iff h).1 ha).1.trans
    ((congrArg _ hnames).trans ((mem_selection_iff h).1 hb).1.symm)
  cases a
  cases b
  simp_all

/-- A selection is in the order of the relative paths, none of them twice. -/
theorem strictly_sorted_selection (hw : w.WellFormed) (h : c.selection w = .ok selected) :
    selected.Pairwise fun a b => a.relative < b.relative := by
  have hboth := (sorted_selection h).and (nodup_selection h)
  refine hboth.imp_of_mem fun ha hb hab => lt_of_le_of_ne hab.1 fun heq => hab.2 ?_
  exact eq_of_relative_eq hw h ha hb heq

/-- Where the chosen files are the same, the same files are selected. -/
theorem selection_congr (hw : w.WellFormed) (h : c.selection w = .ok selected)
    (hunnamed : w'.unnamedBelow c.root = w.unnamedBelow c.root)
    (hfiles : ∀ names, c.Chooses (relativeOf names) →
      (names ∈ w'.filesBelow c.root ↔ names ∈ w.filesBelow c.root)) :
    c.selection w' = .ok selected := by
  obtain ⟨included, excluded, hincluded, hexcluded, hnone, -⟩ := selection_eq_ok_iff.1 h
  have h' : c.selection w' = .ok (select c included excluded (w'.filesBelow c.root)) :=
    selection_eq_ok_iff.2 ⟨included, excluded, hincluded, hexcluded, hunnamed.trans hnone, rfl⟩
  rw [h']
  congr 1
  have hmem (s : Selected) :
      s ∈ select c included excluded (w'.filesBelow c.root) ↔ s ∈ selected := by
    rw [mem_selection_iff h', mem_selection_iff h]
    exact and_congr_right fun _ => and_congr_left (hfiles s.names)
  have hperm := (List.perm_ext_iff_of_nodup (nodup_selection h') (nodup_selection h)).2 hmem
  refine hperm.eq_of_pairwise (fun a b ha hb hab hba => ?_) (sorted_selection h')
    (sorted_selection h)
  exact eq_of_relative_eq hw h ((hmem a).1 ha) hb (le_antisymm hab hba)

/-- Where no chosen file is written and no selected file is taken away, the same files are
selected. -/
theorem selection_of_evolves {files drafts directories : Place → Prop} (hw : w.WellFormed)
    (h : c.selection w = .ok selected) (hne : selected ≠ [])
    (hevolves : w.Evolves files drafts directories w')
    (hfiles : ∀ names, files (c.root.place w.here ++ names) → ¬ c.Chooses (relativeOf names))
    (hdrafts : ∀ s ∈ selected, ¬ drafts (s.path.place w.here)) :
    c.selection w' = .ok selected := by
  obtain ⟨s, hs⟩ := List.exists_mem_of_ne_nil selected hne
  have hroot := (Workspace.mem_filesBelow_iff.1 ((mem_selection_iff h).1 hs).2.1).1
  refine selection_congr hw h ?_ fun names hnames => ?_
  · unfold Workspace.unnamedBelow
    rw [hevolves.locate hroot, hroot, hevolves.unnamed]
  have hunwritten : ¬ files (c.root.place w.here ++ names) := fun hp => hfiles names hp hnames
  constructor
  · intro hmem
    rw [Workspace.mem_filesBelow_iff, hevolves.here] at hmem
    obtain ⟨-, bytes, hfile⟩ := hmem
    exact Workspace.mem_filesBelow_iff.2 ⟨hroot, bytes, hevolves.tree.file_of_file hunwritten hfile⟩
  · intro hmem
    -- a chosen file is selected, and so it is not taken away
    have hkept := hdrafts ⟨names, names.foldl FilePath.push c.root⟩
      ((mem_selection_iff h).2 ⟨rfl, hmem, hnames⟩)
    dsimp only at hkept
    rw [FilePath.place_foldl_push (hw.isName_of_mem_filesBelow hmem)] at hkept
    obtain ⟨-, bytes, hfile⟩ := Workspace.mem_filesBelow_iff.1 hmem
    rw [Workspace.mem_filesBelow_iff, hevolves.here]
    exact ⟨hevolves.locate hroot, bytes, (hevolves.tree.file_iff hunwritten hkept).2 hfile⟩

end ContractBinding.Batch
