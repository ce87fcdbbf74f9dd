import ContractBinding.Proofs.Disk.Evolution
import ContractBinding.Proofs.Disk.FileName

/-!
# Files below a path

On a well-formed disk names lead to places, and whatever is there lies in directories. The files
below a path are then those that its names lead to.
-/

namespace ContractBinding.Disk

namespace Tree

variable {t : Tree} {p : Place} {name : String} {names more : List String} {node : Node}

/-- Every place has names that lead there, and lies in a directory. -/
def WellFormed (t : Tree) : Prop :=
  ∀ e ∈ t.nodes, (∀ name ∈ e.1, IsName name) ∧ t.get? e.1.dropLast = some .directory

instance (t : Tree) : Decidable t.WellFormed := inferInstanceAs (Decidable (∀ e ∈ t.nodes, _ ∧ _))

theorem WellFormed.rooted (h : t.WellFormed) : t.Rooted := by
  intro place name hnode
  obtain ⟨node, hnode⟩ := Option.ne_none_iff_exists'.1 hnode
  have hparent := (h _ (t.mem_nodes_iff.2 ⟨by simp, hnode⟩)).2
  rwa [List.dropLast_concat] at hparent

theorem WellFormed.isName (h : t.WellFormed) (hnode : t.get? p = some node) :
    ∀ name ∈ p, IsName name := by
  by_cases hp : p = []
  · simp [hp]
  · exact (h _ (t.mem_nodes_iff.2 ⟨hp, hnode⟩)).1

/-- What lies below a place lies below a directory. -/
theorem Rooted.directory_of_append (h : t.Rooted) (hnode : t.get? (p ++ name :: more) ≠ none) :
    t.get? p = some .directory := by
  induction more using List.reverseRecOn with
  | nil => exact h p name hnode
  | append_singleton more last ih =>
    refine ih ?_
    rw [← List.cons_append, ← List.append_assoc] at hnode
    rw [h _ last hnode]
    simp

theorem mem_filesBelow_iff :
    names ∈ t.filesBelow p ↔ ∃ bytes, t.get? (p ++ names) = some (.file bytes) := by
  unfold filesBelow
  rw [List.mem_filterMap]
  constructor
  · rintro ⟨⟨other, _ | bytes⟩, hmem, hsome⟩
    · cases hsome
    · simp only [Option.ite_none_right_eq_some, List.isPrefixOf_iff_prefix] at hsome
      obtain ⟨⟨rest, rfl⟩, hrest⟩ := hsome
      rw [List.drop_left, Option.some.injEq] at hrest
      exact ⟨bytes, hrest ▸ (t.mem_nodes_iff.1 hmem).2⟩
  · rintro ⟨bytes, hfile⟩
    refine ⟨(p ++ names, .file bytes), t.mem_nodes_iff.2 ⟨?_, hfile⟩, ?_⟩
    · intro hroot
      simp [hroot] at hfile
    · simp

theorem nodup_filesBelow (t : Tree) (p : Place) : (t.filesBelow p).Nodup := by
  have hplaces : t.nodes.Pairwise fun e e' => e.1 ≠ e'.1 :=
    List.pairwise_map.1 (List.nodup_cons.1 t.distinct).2
  unfold filesBelow
  refine List.pairwise_filterMap.2 (hplaces.imp ?_)
  rintro ⟨place, _ | _⟩ ⟨place', _ | _⟩ hne names hnames names' hnames' <;>
    simp only [Option.ite_none_right_eq_some, List.isPrefixOf_iff_prefix, reduceCtorEq]
      at hnames hnames'
  obtain ⟨⟨rest, rfl⟩, hrest⟩ := hnames
  obtain ⟨⟨rest', rfl⟩, hrest'⟩ := hnames'
  rw [List.drop_left, Option.some.injEq] at hrest hrest'
  subst hrest hrest'
  exact fun h => hne (by rw [h])

end Tree

namespace FilePath

variable {names : List String} {here : Place}

theorem place_foldl_push (h : ∀ name ∈ names, IsName name) (p : FilePath) :
    (names.foldl push p).place here = p.place here ++ names := by
  induction names generalizing p with
  | nil => simp
  | cons name rest ih =>
    rw [List.forall_mem_cons] at h
    rw [List.foldl_cons, ih h.2, place_push h.1]
    simp

end FilePath

namespace Workspace

variable {w : Workspace} {path : FilePath} {names : List String} {bytes : ByteArray}

/-- A well-formed tree in which the working directory is one. -/
def WellFormed (w : Workspace) : Prop := w.tree.WellFormed ∧ w.tree.get? w.here = some .directory

instance (w : Workspace) : Decidable w.WellFormed := inferInstanceAs (Decidable (_ ∧ _))

/-- The disk whose root holds some files with some texts. -/
def ofTexts (files : List (String × String)) : Workspace where
  tree := files.foldr (fun file t => t.put [file.1] (.file file.2.toUTF8)) {}

theorem WellFormed.rooted (h : w.WellFormed) : w.Rooted := ⟨h.1.rooted, h.2⟩

theorem mem_filesBelow_iff : names ∈ w.filesBelow path ↔ w.locate path = .ok (path.place w.here) ∧
    ∃ bytes, w.tree.get? (path.place w.here ++ names) = some (.file bytes) := by
  unfold filesBelow
  cases hlocate : w.locate path with
  | error fault => simp
  | ok p =>
    rw [(locate_eq_ok_iff.1 hlocate).2.2]
    simpa using Tree.mem_filesBelow_iff

theorem nodup_filesBelow (w : Workspace) (path : FilePath) : (w.filesBelow path).Nodup := by
  unfold filesBelow
  split
  · exact List.nodup_nil
  · exact Tree.nodup_filesBelow _ _

theorem WellFormed.isName_of_mem_filesBelow (h : w.WellFormed)
    (hnames : names ∈ w.filesBelow path) : ∀ name ∈ names, IsName name := by
  obtain ⟨-, bytes, hfile⟩ := mem_filesBelow_iff.1 hnames
  exact fun name hname => h.1.isName hfile name (List.mem_append_right _ hname)

/-- The names below a path lead to a place that can be reached. -/
theorem locate_foldl_push (hroot : w.tree.Rooted) (hnames : ∀ name ∈ names, IsName name)
    (hpath : w.locate path = .ok (path.place w.here))
    (hnode : w.tree.get? (path.place w.here ++ names) ≠ none) :
    w.locate (names.foldl FilePath.push path) = .ok (path.place w.here ++ names) := by
  induction names generalizing path with
  | nil => simpa using hpath
  | cons name rest ih =>
    rw [List.forall_mem_cons] at hnames
    have hplace := FilePath.place_push hnames.1 path w.here
    have hpush : w.locate (path.push name) = .ok ((path.push name).place w.here) := by
      refine locate_eq_ok_iff.2 ⟨FilePath.text_push_ne_empty hnames.1 path, fun q hq => ?_, rfl⟩
      rcases (FilePath.mem_way_push hnames.1 path).1 hq with hq | rfl
      · exact (locate_eq_ok_iff.1 hpath).2.1 q hq
      · exact hroot.directory_of_append hnode
    rw [List.foldl_cons, ih hnames.2 hpush]
    · rw [hplace]
      simp
    · rw [hplace]
      simpa using hnode

/-- A file below a path can be read. -/
theorem WellFormed.read_of_mem_filesBelow (h : w.WellFormed) (hnames : names ∈ w.filesBelow path) :
    ∃ bytes, w.read (names.foldl FilePath.push path) = .ok bytes := by
  have hproper := h.isName_of_mem_filesBelow hnames
  obtain ⟨hpath, bytes, hfile⟩ := mem_filesBelow_iff.1 hnames
  refine ⟨bytes, read_eq_ok_iff.2 (node_eq_ok_iff.2 ?_)⟩
  rw [FilePath.place_foldl_push hproper]
  exact ⟨locate_foldl_push h.1.rooted hproper hpath (by simp [hfile]), hfile⟩

/-- A file is read under a name only: every other last part leads to a directory. -/
theorem Rooted.exists_push_of_read (h : w.Rooted) (hread : w.read path = .ok bytes) :
    ∃ (d : FilePath) (name : String), IsName name ∧ path = d.push name := by
  obtain ⟨hlocate, hfile⟩ := node_eq_ok_iff.1 (read_eq_ok_iff.1 hread)
  have hway := (locate_eq_ok_iff.1 hlocate).2.1
  refine (FilePath.exists_push_or_idle path).resolve_right ?_
  rintro ⟨front, part, hparts, hidle⟩
  have hfront : w.tree.get? (Tree.goal (path.start w.here) front) = some .directory :=
    hway _ (by rw [FilePath.way, hparts, Tree.mem_passed_concat]; exact .inr rfl)
  have hplace : path.place w.here = Tree.next (Tree.goal (path.start w.here) front) part := by
    rw [FilePath.place, hparts, Tree.goal_append]
    rfl
  rcases h.1.next_cases hfront part with hdir | hnext
  · rw [← hplace, hfile] at hdir
    simp at hdir
  · -- parts that are no names lead to no place of their own
    unfold Tree.next at hnext
    rcases hidle with rfl | rfl | ⟨rfl, -⟩
    · simp at hnext
    · simp at hnext
    · simp only [String.reduceEq, or_self, if_false, if_true] at hnext
      have hlength := congrArg List.length hnext
      simp at hlength

end Workspace

end ContractBinding.Disk
