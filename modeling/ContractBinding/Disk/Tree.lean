import ContractBinding.Disk.Basic

/-!
# A tree of files

A disk as a value. A place is the list of names that lead to it from the root; a tree says what
is in each place. Paths are followed part by part, and every part but the last has to be in a
directory.
-/

namespace ContractBinding.Disk

/-- The names that lead to a place from the root. -/
abbrev Place := List String

/-- What is in a place. -/
inductive Node where
  | directory
  | file (bytes : ByteArray)

instance : DecidableEq Node
  | .directory, .directory => isTrue rfl
  | .directory, .file _ | .file _, .directory => isFalse nofun
  | .file a, .file b =>
    decidable_of_iff (a.data = b.data) (by rw [Node.file.injEq, ByteArray.ext_iff])

/-- The places in which there is something, apart from the root. -/
structure Tree where
  nodes : List (Place × Node) := []
  /-- Every place is there once, and the root is not among them. -/
  distinct : ([] :: nodes.map Prod.fst).Nodup := by simp
  deriving DecidableEq

namespace Tree

/-- What is in a place; the root is a directory. -/
def get? (t : Tree) (place : Place) : Option Node :=
  if place = [] then some .directory else t.nodes.lookup place

/-- Leave a place empty. -/
def erase (t : Tree) (place : Place) : Tree where
  nodes := t.nodes.filter fun e => e.1 != place
  distinct := t.distinct.sublist ((List.filter_sublist.map Prod.fst).cons_cons [])

/-- Put something into a place. The root stays what it is. -/
def put (t : Tree) (place : Place) (node : Node) : Tree :=
  if h : place = [] then t
  else {
    nodes := (place, node) :: (t.erase place).nodes
    distinct := by
      have herased := (t.erase place).distinct
      have hfree : place ∉ (t.erase place).nodes.map Prod.fst := by simp [erase]
      simp only [List.map_cons, List.nodup_cons, List.mem_cons, not_or] at herased ⊢
      exact ⟨⟨Ne.symm h, herased.1⟩, hfree, herased.2⟩ }

/-- A place holds what was put there last. -/
theorem get?_put_self (t : Tree) {place : Place} (h : place ≠ []) (node : Node) :
    (t.put place node).get? place = some node := by
  simp [get?, put, h]

/-- Nothing is in a place that was emptied. -/
theorem get?_erase_self (t : Tree) {place : Place} (h : place ≠ []) :
    (t.erase place).get? place = none := by
  simp only [get?, h, if_false, erase]
  induction t.nodes with
  | nil => rfl
  | cons e rest ih =>
    obtain ⟨k, v⟩ := e
    by_cases hk : k = place
    · simpa [hk] using ih
    · have : (place == k) = false := beq_eq_false_iff_ne.2 (Ne.symm hk)
      simpa [hk, List.lookup_cons, this] using ih

/-- Emptying a place leaves the others. -/
theorem get?_erase_of_ne (t : Tree) {place other : Place} (h : other ≠ place) :
    (t.erase place).get? other = t.get? other := by
  simp only [get?, erase]
  split
  · rfl
  · induction t.nodes with
    | nil => rfl
    | cons e rest ih =>
      obtain ⟨k, v⟩ := e
      by_cases hk : k = place
      · have : (other == k) = false := beq_eq_false_iff_ne.2 (hk ▸ h)
        simpa [hk, List.lookup_cons, hk ▸ this] using ih
      · rw [List.filter_cons_of_pos (by simpa using hk)]
        simp only [List.lookup_cons, ih]

/-- Putting something into a place leaves the others. -/
theorem get?_put_of_ne (t : Tree) {place other : Place} (h : other ≠ place) (node : Node) :
    (t.put place node).get? other = t.get? other := by
  by_cases hplace : place = []
  · simp [put, hplace]
  · rw [← get?_erase_of_ne t h]
    simp [get?, put, hplace, List.lookup_cons, beq_eq_false_iff_ne.2 h]

/-- The entries of a tree say what is in its places. -/
theorem mem_nodes_iff (t : Tree) {place : Place} {node : Node} :
    (place, node) ∈ t.nodes ↔ place ≠ [] ∧ t.get? place = some node := by
  have hdistinct := t.distinct
  rw [List.nodup_cons] at hdistinct
  constructor
  · intro hmem
    have hplace : place ≠ [] := by
      rintro rfl
      exact hdistinct.1 (List.mem_map_of_mem hmem)
    obtain ⟨front, back, hnodes⟩ := List.append_of_mem hmem
    refine ⟨hplace, ?_⟩
    rw [get?, if_neg hplace, List.lookup_eq_some_iff]
    refine ⟨front, back, hnodes, fun e he => bne_iff_ne.2 ?_⟩
    have hapart := hdistinct.2
    rw [hnodes, List.map_append, List.map_cons, List.nodup_append] at hapart
    exact Ne.symm (hapart.2.2 _ (List.mem_map_of_mem he) _ (List.mem_cons_self ..))
  · rintro ⟨hplace, hget⟩
    rw [get?, if_neg hplace] at hget
    obtain ⟨front, back, hnodes, -⟩ := List.lookup_eq_some_iff.1 hget
    rw [hnodes]
    simp

/-- The place one part farther on. -/
def next (here : Place) (part : String) : Place :=
  if part = "" ∨ part = "." then here
  else if part = ".." then here.dropLast
  else here ++ [part]

/-- The place that the parts of a path lead to; there need not be anything in it. -/
def walk (t : Tree) (here : Place) : List String → Except Fault Place
  | [] => .ok here
  | part :: rest =>
    match t.get? here with
    | none => .error .notFound
    | some (.file _) => .error .notADirectory
    | some .directory => walk t (next here part) rest

/-- Follow the parts of a path and make the directories that are missing. -/
def makeDirectories (t : Tree) (here : Place) : List String → Except Fault Tree
  | [] => .ok t
  | part :: rest =>
    let place := next here part
    match t.get? place with
    | none => makeDirectories (t.put place .directory) place rest
    | some .directory => makeDirectories t place rest
    | some (.file _) => .error .alreadyExists

/-- The files in a place and below it, by the names that lead to them from there. -/
def filesBelow (t : Tree) (place : Place) : List (List String) :=
  t.nodes.filterMap fun (other, node) =>
    match node with
    | .directory => none
    | .file _ => if place.isPrefixOf other then some (other.drop place.length) else none

end Tree

/-- A tree as a process finds it. -/
structure Workspace where
  tree : Tree := {}
  /-- The working directory. -/
  here : Place := []
  /-- Directories with a file in them, or below them, whose name is no text. -/
  unnamed : List Place := []
  /-- The number of the process. -/
  process : UInt32 := 1
  /-- The number of its next draft. -/
  drafts : UInt64 := 0

namespace Workspace

/-- The same tree as another process finds it, which has had some drafts. -/
def seenBy (w : Workspace) (process : UInt32) (drafts : UInt64) : Workspace :=
  { w with process, drafts }

/-- The place of a path. -/
def locate (w : Workspace) (path : FilePath) : Except Fault Place :=
  if path.text = "" then .error .notFound
  else w.tree.walk (if path.isAbsolute then [] else w.here) path.parts

/-- What is in the place of a path. -/
def node (w : Workspace) (path : FilePath) : Except Fault Node := do
  match w.tree.get? (← w.locate path) with
  | none => .error .notFound
  | some node => .ok node

/-- The bytes of a file. -/
def read (w : Workspace) (path : FilePath) : Except Fault ByteArray := do
  match ← w.node path with
  | .directory => .error .isADirectory
  | .file bytes => .ok bytes

/-- The working directory as a path. -/
def workingDirectory (w : Workspace) : FilePath := ⟨"/" ++ "/".intercalate w.here⟩

/-- The files in the place of a path and below it. -/
def filesBelow (w : Workspace) (path : FilePath) : List (List String) :=
  match w.locate path with
  | .error _ => []
  | .ok place => w.tree.filesBelow place

/-- The files in the place of a path and below it that have a name on their way which is no text,
by the directories from which on they have. -/
def unnamedBelow (w : Workspace) (path : FilePath) : List Place :=
  match w.locate path with
  | .error _ => []
  | .ok place => w.unnamed.filter place.isPrefixOf

/-- Make a directory and those it lies in. -/
def createDirectories (w : Workspace) (path : FilePath) : Except Fault Workspace :=
  if path.text = "" then .ok w
  else do
    let start := if path.isAbsolute then [] else w.here
    return { w with tree := ← w.tree.makeDirectories start path.parts }

/-- Write a file: what was in it is lost. A directory is no file. -/
def write (w : Workspace) (path : FilePath) (bytes : ByteArray) : Except Fault Workspace := do
  let place ← w.locate path
  match w.tree.get? place with
  | some .directory => .error .isADirectory
  | _ => .ok { w with tree := w.tree.put place (.file bytes) }

/-- Remove a file. -/
def removeFile (w : Workspace) (path : FilePath) : Except Fault Workspace := do
  let place ← w.locate path
  match w.tree.get? place with
  | none => .error .notFound
  | some .directory => .error .isADirectory
  | some (.file _) => .ok { w with tree := w.tree.erase place }

/-- Put a file in the place of another. -/
def rename (w : Workspace) (source target : FilePath) : Except Fault Workspace := do
  let old ← w.locate source
  let new ← w.locate target
  match ← w.node source, w.tree.get? new with
  | _, some .directory => .error .isADirectory
  | node, _ => .ok { w with tree := (w.tree.erase old).put new node }

/-- Do something that may fail; the tree stays as it is if it does. -/
def attempt {α : Type} (act : Workspace → Except Fault (α × Workspace)) :
    StateM Workspace (Except Fault α) := fun w =>
  match act w with
  | .error fault => (.error fault, w)
  | .ok (a, w) => (.ok a, w)

end Workspace

instance : Disk (StateM Workspace) where
  workingDirectory := do return (← get).workingDirectory
  process := do return (← get).process
  draftNumber := modifyGet fun w => (w.drafts, { w with drafts := w.drafts + 1 })
  read path := do return (← get).read path
  isFile path := do return ((← get).read path).toOption.isSome
  filesBelow path := do
    let w ← get
    return (w.filesBelow path).map some ++ (w.unnamedBelow path).map fun _ => none
  createDirectories path :=
    Workspace.attempt fun w => do return ((), ← w.createDirectories path)
  write path bytes := Workspace.attempt fun w => do return ((), ← w.write path bytes)
  removeFile path := Workspace.attempt fun w => do return ((), ← w.removeFile path)
  rename source target := Workspace.attempt fun w => do return ((), ← w.rename source target)

end ContractBinding.Disk
