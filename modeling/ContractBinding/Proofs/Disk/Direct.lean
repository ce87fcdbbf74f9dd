import ContractBinding.Proofs.Disk.Evolution

/-!
# Direct paths

A path is direct where it never goes up again after an empty place. What a direct path finds depends
only on what is in its place and above it: while no file is taken away, directories that are made
elsewhere cannot open a way for it.
-/

namespace ContractBinding.Disk

namespace Tree

variable {t t' : Tree} {files directories : Place → Prop} {here p q : Place}
  {parts more : List String}

/-- Nowhere do the parts go up after they have come to an empty place. -/
inductive Direct (t : Tree) : Place → List String → Prop
  | nil {here : Place} : Direct t here []
  | cons {here : Place} {part : String} {rest : List String}
      (hup : t.get? here = none → ".." ∉ part :: rest) (hrest : Direct t (next here part) rest) :
    Direct t here (part :: rest)

theorem direct_cons {part : String} : t.Direct here (part :: parts) ↔
    (t.get? here = none → ".." ∉ part :: parts) ∧ t.Direct (next here part) parts :=
  ⟨fun | .cons hup hrest => ⟨hup, hrest⟩, fun h => .cons h.1 h.2⟩

instance decidableDirect (t : Tree) : (here : Place) → (parts : List String) →
    Decidable (t.Direct here parts)
  | _, [] => .isTrue .nil
  | here, part :: rest =>
    have := decidableDirect t (next here part) rest
    decidable_of_iff _ direct_cons.symm

theorem prefix_next {part : String} (h : part ≠ "..") (here : Place) : here <+: next here part := by
  unfold next
  split
  · exact List.prefix_refl here
  · exact List.prefix_append here [part]

/-- Parts that never go up lead downwards. -/
theorem prefix_of_onWay (h : ".." ∉ parts) (hq : OnWay here parts q) :
    here <+: q ∧ q <+: goal here parts := by
  induction parts generalizing here q with
  | nil =>
    rw [onWay_nil.1 hq]
    exact ⟨List.prefix_refl here, List.prefix_refl here⟩
  | cons part rest ih =>
    rw [List.mem_cons, not_or] at h
    have hnext := prefix_next (Ne.symm h.1) here
    have hgoal := hnext.trans (ih (q := goal (next here part) rest) h.2 (.inr rfl)).1
    rcases onWay_cons.1 hq with rfl | hq
    · exact ⟨List.prefix_refl q, hgoal⟩
    · exact ⟨hnext.trans (ih h.2 hq).1, (ih h.2 hq).2⟩

namespace Direct

theorem of_append (h : t.Direct here (parts ++ more)) : t.Direct here parts := by
  induction parts generalizing here with
  | nil => exact .nil
  | cons part rest ih =>
    obtain ⟨hup, hrest⟩ := direct_cons.1 h
    exact .cons (fun hnone hmem => hup hnone (List.mem_append_left more hmem)) (ih hrest)

/-- From an empty place a direct path leads downwards. -/
theorem prefix_goal (h : t.Direct here parts) (hq : OnWay here parts q) (hnone : t.get? q = none) :
    q <+: goal here parts := by
  induction parts generalizing here with
  | nil =>
    rw [onWay_nil.1 hq]
    exact List.prefix_refl here
  | cons part rest ih =>
    obtain ⟨hup, hrest⟩ := direct_cons.1 h
    rcases onWay_cons.1 hq with rfl | hq
    · exact (prefix_of_onWay (hup hnone) (.inr rfl)).1
    · exact ih hrest hq

theorem evolves (h : t.Direct here parts) (ht : Evolves files (fun _ => False) directories t t') :
    t'.Direct here parts := by
  induction h with
  | nil => exact .nil
  | cons hup _ ih => exact .cons (fun hnone => hup (ht.eq_none hnone id)) ih

/-- A direct path that is not found passes no file, and there is nothing in its place. -/
theorem of_walk_eq_notFound (h : t.Direct here parts) (hroot : t.Rooted)
    (hwalk : t.walk here parts = .error .notFound) :
    t.get? (goal here parts) = none ∧
      ∀ q ∈ passed here parts, ∀ bytes, t.get? q ≠ some (.file bytes) := by
  induction h with
  | nil => cases hwalk
  | @cons here part rest hup _ ih =>
    rw [Tree.walk] at hwalk
    cases hnode : t.get? here with
    | none =>
      have hbelow (q : Place) (hq : OnWay here (part :: rest) q) : t.get? q = none :=
        hroot.eq_none_of_prefix hnode (prefix_of_onWay (hup hnode) hq).1
      exact ⟨hbelow _ (.inr rfl), fun q hq bytes hfile => by simp [hbelow q (.inl hq)] at hfile⟩
    | some node =>
      rw [hnode] at hwalk
      cases node with
      | file bytes => cases hwalk
      | directory =>
        obtain ⟨hgoal, hpassed⟩ := ih hwalk
        refine ⟨hgoal, List.forall_mem_cons.2 ⟨fun bytes hfile => ?_, hpassed⟩⟩
        simp [hnode] at hfile

end Direct

/-- Where there is no file on the way, the way can be followed or leads nowhere. -/
theorem walk_of_no_file (h : ∀ q, OnWay here parts q → ∀ bytes, t.get? q ≠ some (.file bytes)) :
    t.walk here parts = .error .notFound ∨ t.walk here parts = .ok (goal here parts) := by
  induction parts generalizing here with
  | nil => exact .inr rfl
  | cons part rest ih =>
    rw [Tree.walk]
    rcases hnode : t.get? here with _ | _ | bytes
    · exact .inl rfl
    · exact ih fun q hq => h q (onWay_cons.2 (.inr hq))
    · exact absurd hnode (h here (onWay_here here _) bytes)

/-- Files written elsewhere let a direct path be followed as before, or to an empty place. -/
theorem Evolves.walk_of_direct (h : Evolves files (fun _ => False) directories t t')
    (hroot : t.Rooted) (hdirect : t.Direct here parts) (hfiles : ∀ q, files q → ¬ q <+: goal here parts) :
    t'.walk here parts = t.walk here parts ∨
      t.walk here parts = .error .notFound ∧ t'.walk here parts = .ok (goal here parts) := by
  induction hdirect with
  | nil => exact .inl rfl
  | @cons here part rest hup _ ih =>
    cases hnode : t.get? here with
    | none =>
      have hnone : t.walk here (part :: rest) = .error .notFound := by rw [Tree.walk, hnode]
      rw [hnone, and_iff_right rfl]
      refine walk_of_no_file fun q hq bytes hfile => ?_
      obtain ⟨hbelow, habove⟩ := prefix_of_onWay (hup hnode) hq
      rw [h.file_iff (fun hq => hfiles q hq habove) id,
        hroot.eq_none_of_prefix hnode hbelow] at hfile
      cases hfile
    | some node =>
      cases node with
      | directory =>
        rw [Tree.walk, Tree.walk, hnode, h.directory hnode]
        exact ih hfiles
      | file bytes =>
        obtain ⟨bytes', hnode'⟩ := h.exists_file hnode id
        rw [Tree.walk, Tree.walk, hnode, hnode']
        exact .inl rfl

end Tree

variable {w w' : Workspace} {files directories : Place → Prop} {path p : FilePath} {name : String}
  {q : Place}

/-- Nowhere does the path go up after it has come to an empty place. -/
def FilePath.Direct (path : FilePath) (w : Workspace) : Prop :=
  w.tree.Direct (path.start w.here) path.parts

instance (path : FilePath) (w : Workspace) : Decidable (path.Direct w) :=
  inferInstanceAs (Decidable (w.tree.Direct _ _))

namespace FilePath.Direct

theorem evolves (h : path.Direct w) (hw : w.Evolves files (fun _ => False) directories w') :
    path.Direct w' := by
  unfold FilePath.Direct
  rw [hw.here]
  exact Tree.Direct.evolves h hw.tree

/-- An empty place on the way of a direct path to a name lies above the name. -/
theorem prefix_of_mem_way (hn : IsName name) (h : (p.push name).Direct w)
    (hq : q ∈ (p.push name).way w.here) (hnone : w.tree.get? q = none) :
    q <+: (p.push name).place w.here ∧ q ≠ (p.push name).place w.here := by
  obtain ⟨front, hparts, -, -⟩ := FilePath.parts_push hn p
  have hplace : (p.push name).place w.here =
      Tree.goal ((p.push name).start w.here) front ++ [name] := by
    rw [FilePath.place, hparts, Tree.goal_append]
    exact Tree.next_of_isName hn _
  rw [FilePath.way, hparts, Tree.mem_passed_concat] at hq
  unfold FilePath.Direct at h
  rw [hparts] at h
  have hfront := h.of_append.prefix_goal hq hnone
  rw [hplace]
  refine ⟨hfront.trans (List.prefix_append _ _), fun heq => ?_⟩
  have hlength := hfront.length_le
  rw [heq, List.length_append, List.length_singleton] at hlength
  omega

end FilePath.Direct

namespace Workspace

/-- A direct path finds what it found before, if nothing was written in its place or above it, and
no directory made in its place. -/
theorem Evolves.node_of_direct (h : w.Evolves files (fun _ => False) directories w')
    (hroot : w.Rooted) (hdirect : path.Direct w) (hfiles : ∀ q, files q → ¬ q <+: path.place w.here)
    (hdirectories : ¬ directories (path.place w.here)) : w'.node path = w.node path := by
  have hplace : w'.tree.get? (path.place w.here) = w.tree.get? (path.place w.here) :=
    h.tree.get?_eq (fun hp => hfiles _ hp (List.prefix_refl _)) id hdirectories
  have hlocate : w'.locate path = w.locate path ∨
      w.locate path = .error .notFound ∧ w'.locate path = .ok (path.place w.here) := by
    unfold Workspace.locate
    rw [h.here]
    split
    · exact .inl rfl
    · exact h.tree.walk_of_direct hroot.1 hdirect hfiles
  rcases hlocate with hsame | ⟨hbefore, hafter⟩
  · exact node_congr hsame hplace
  · have hwalk := hbefore
    rw [Workspace.locate, if_neg (locate_eq_ok_iff.1 hafter).1] at hwalk
    have hnone := (hdirect.of_walk_eq_notFound hroot.1 hwalk).1
    rw [node_of_locate_eq_error hbefore, node_of_eq_none hafter (hplace.trans hnone)]

end Workspace

end ContractBinding.Disk
