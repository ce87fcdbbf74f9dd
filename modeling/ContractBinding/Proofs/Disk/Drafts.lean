import ContractBinding.Proofs.Disk.Evolution
import ContractBinding.Proofs.Disk.FileName
import ContractBinding.Proofs.Outcome
import ContractBinding.Proofs.Text.Digits

/-!
# Drafts

A draft is written beside its target, under a name that nobody looks up first: a file that has this
name is lost. Renamed, the draft leaves its bytes in the place of the target and nothing in its own.
-/

namespace ContractBinding.Disk

open Outcome (bind_eq_ok_iff)

variable {name : String} {process : UInt32} {number : UInt64}

theorem toList_draftName (name : String) (process : UInt32) (number : UInt64) :
    (draftName name process number).toList =
      '.' :: (name.toList ++ '.' :: (Text.digitsOf process.toNat ++
        '.' :: (Text.digitsOf number.toNat ++ ['.', 't', 'm', 'p']))) := by
  have hprocess : (toString process).toList = Text.digitsOf process.toNat := Nat.toList_repr
  have hnumber : (toString number).toList = Text.digitsOf number.toNat := Nat.toList_repr
  simp [draftName, hprocess, hnumber]

theorem isName_draftName (hslash : '/' ∉ name.toList) (process : UInt32) (number : UInt64) :
    IsName (draftName name process number) := by
  have hdigits (n : Nat) : '/' ∉ Text.digitsOf n :=
    Text.not_mem_of_isDigit rfl fun _ => Text.isDigit_of_mem_digitsOf
  refine isName_of_length ?_ ?_ <;> rw [toList_draftName]
  · simp only [List.length_cons, List.length_append, List.length_nil]
    omega
  · simp [hslash, hdigits]

/-- A draft is not named as its target is. -/
theorem draftName_ne (name : String) (process : UInt32) (number : UInt64) :
    draftName name process number ≠ name := by
  intro h
  have hlength := congrArg (fun s : String => s.toList.length) h
  simp only [toList_draftName, List.length_cons, List.length_append] at hlength
  omega

theorem draftName_ne_of_head {other : String} (h : other.toList.head? ≠ some '.') :
    draftName name process number ≠ other := by
  rintro rfl
  exact h (by rw [toList_draftName]; rfl)

/-- A draft is told from an output by its extension. -/
theorem draftName_ne_renamed (other : String) :
    draftName name process number ≠ FilePath.renamed other "ts" := by
  intro h
  have hlast := congrArg (fun s : String => s.toList.getLast?) h
  simp [toList_draftName, FilePath.renamed, List.getLast?_append, List.getLast?_cons] at hlast

namespace FilePath

theorem not_mem_fileName? (p : FilePath) : '/' ∉ (p.fileName?.getD "").toList := by
  cases h : p.fileName? with
  | none => simp
  | some name => exact (isName_of_fileName? h).2.2.2

/-- Beside a name there is what lies on the same way. -/
theorem exists_draft_push (hn : IsName name) (p : FilePath) (here : Place) :
    ∃ d : FilePath, d.place here = p.place here ∧
      (∀ process number, (p.push name).draft process number =
        d.push (draftName name process number)) ∧
      ∀ q, Tree.OnWay (d.start here) d.parts q ↔ q ∈ (p.push name).way here := by
  obtain ⟨parent, hparent, -, -, hplace, hway⟩ := exists_parent_push hn p here
  refine ⟨parent, hplace, fun process number => ?_, hway⟩
  simp [draft, sibling, fileName?_push hn, hparent]

theorem place_draft_push (hn : IsName name) (p : FilePath) (here : Place) (process : UInt32)
    (number : UInt64) :
    ((p.push name).draft process number).place here =
      p.place here ++ [draftName name process number] := by
  obtain ⟨d, hplace, hdraft, -⟩ := exists_draft_push hn p here
  rw [hdraft, place_push (isName_draftName hn.2.2.2 process number), hplace]

theorem mem_way_draft_push (hn : IsName name) (p : FilePath) {here q : Place} :
    q ∈ ((p.push name).draft process number).way here ↔ q ∈ (p.push name).way here := by
  obtain ⟨d, -, hdraft, hway⟩ := exists_draft_push hn p here
  rw [hdraft, mem_way_push (isName_draftName hn.2.2.2 process number), hway]

/-- No draft of a name lies above it. -/
theorem not_prefix_draft_push (hn : IsName name) (p : FilePath) (here : Place) :
    ¬ ((p.push name).draft process number).place here <+: (p.push name).place here := by
  rw [place_draft_push hn, place_push hn]
  intro h
  have heq := h.eq_of_length (by simp)
  exact draftName_ne _ _ _ (List.append_singleton_inj.1 heq).2

theorem place_draft_push_ne (hn : IsName name) (p : FilePath) (here : Place) :
    ((p.push name).draft process number).place here ≠ (p.push name).place here := by
  intro h
  have hprefix := @not_prefix_draft_push _ process number hn p here
  rw [h] at hprefix
  exact hprefix List.prefix_rfl

theorem exists_draft (p : FilePath) (process : UInt32) (number : UInt64) :
    ∃ (d : FilePath) (name : String), IsName name ∧ p.draft process number = d.push name := by
  have hn := isName_draftName (not_mem_fileName? p) process number
  unfold draft sibling
  split
  · next parent _ _ => exact ⟨parent, _, hn, rfl⟩
  · exact ⟨p, _, hn, rfl⟩

end FilePath

namespace Tree

variable {t : Tree} {p q : Place}

/-- A file that is written in one place and brought to another is the only one that is new, and a
file in the first place is lost. -/
theorem evolves_move (hp : t.get? p ≠ some .directory) (hq : t.get? q ≠ some .directory)
    (bytes : ByteArray) : Evolves (· = q) (· = p) (fun _ => False) t
      (((t.put p (.file bytes)).erase p).put q (.file bytes)) := by
  intro r
  have hroot {place : Place} (h : t.get? place ≠ some .directory) : place ≠ [] := by
    rintro rfl
    exact h (get?_root t)
  by_cases hrq : r = q
  · subst hrq
    rw [get?_put_self _ (hroot hq)]
    exact .written (by rfl) hq bytes
  rw [get?_put_of_ne _ hrq]
  by_cases hrp : r = p
  · subst hrp
    rw [get?_erase_self _ (hroot hp)]
    rcases hnode : t.get? r with _ | _ | _
    · exact .same none
    · exact absurd hnode hp
    · exact .taken rfl
  · rw [get?_erase_of_ne _ hrp, get?_put_of_ne t hrp]
    exact .same _

end Tree

namespace Workspace

variable {w w' w'' : Workspace} {path out draft source target : FilePath} {bytes : ByteArray}
  {node : Node} {fault : Fault}

theorem write_eq_ok_iff : w.write path bytes = .ok w' ↔
    w.locate path = .ok (path.place w.here) ∧
      w.tree.get? (path.place w.here) ≠ some .directory ∧
      w' = { w with tree := w.tree.put (path.place w.here) (.file bytes) } := by
  unfold write
  cases hlocate : w.locate path with
  | error fault => simp [bind, Except.bind]
  | ok place =>
    obtain rfl := (locate_eq_ok_iff.1 hlocate).2.2
    rcases hnode : w.tree.get? (path.place w.here) with _ | _ | _ <;>
      simp [bind, Except.bind, hnode, eq_comm]

theorem rename_eq_ok_iff : w.rename source target = .ok w' ↔
    ∃ old new node, w.locate source = .ok old ∧ w.locate target = .ok new ∧
      w.tree.get? old = some node ∧ w.tree.get? new ≠ some .directory ∧
      w' = { w with tree := (w.tree.erase old).put new node } := by
  unfold rename Workspace.node
  cases hold : w.locate source with
  | error fault => simp [bind, Except.bind]
  | ok old =>
    cases hnew : w.locate target with
    | error fault => simp [bind, Except.bind]
    | ok new =>
      cases hnode : w.tree.get? old with
      | none => simp [bind, Except.bind, hnode]
      | some node =>
        rcases htarget : w.tree.get? new with _ | _ | _ <;>
          simp [bind, Except.bind, hnode, htarget, eq_comm]

/-- What can be renamed and is not cannot be removed either. -/
theorem removeFile_of_rename_eq_error (hnode : w.node source = .ok node)
    (h : w.rename source target = .error fault) : ∃ fault, w.removeFile target = .error fault := by
  unfold removeFile
  cases hnew : w.locate target with
  | error fault => exact ⟨fault, rfl⟩
  | ok new =>
    rcases htarget : w.tree.get? new with _ | _ | _
    · exact ⟨.notFound, by simp [bind, Except.bind, htarget]⟩
    · exact ⟨.isADirectory, by simp [bind, Except.bind, htarget]⟩
    · obtain ⟨hold, hnode⟩ := node_eq_ok_iff.1 hnode
      have hok := rename_eq_ok_iff.2 ⟨_, _, _, hold, hnew, hnode, by simp [htarget], rfl⟩
      rw [h] at hok
      cases hok

/-- Where the next draft of a path goes. -/
def draftPlace (w : Workspace) (path : FilePath) : Place :=
  (path.draft w.process w.drafts).place w.here

theorem evolves_write (h : w.write path bytes = .ok w') :
    w.Evolves (· = path.place w.here) (fun _ => False) (fun _ => False) w' := by
  obtain ⟨hlocate, hplace, rfl⟩ := write_eq_ok_iff.1 h
  have htree := Tree.evolves_put_file hplace bytes
  refine ⟨rfl, rfl, rfl, htree, fun hroot => ⟨hroot.1.put hplace ?_ _, htree.directory hroot.2⟩⟩
  exact hroot.1.exists_parent_of_walk (List.map_eq_nil_iff.not.2 (Text.pieces_ne_nil _ _))
    ((Tree.walk_eq_ok_iff _).2 (locate_eq_ok_iff.1 hlocate).2) hplace

/-- A file that was written is there. -/
theorem node_of_write (h : w.write path bytes = .ok w') : w'.node path = .ok (.file bytes) := by
  have hevolves := evolves_write h
  obtain ⟨hlocate, hplace, rfl⟩ := write_eq_ok_iff.1 h
  refine node_eq_ok_iff.2 ⟨hevolves.locate hlocate, Tree.get?_put_self _ (fun hnil => ?_) _⟩
  exact hplace (by rw [hnil]; exact Tree.get?_root _)

/-- A draft that is renamed is the only file that is written, in the place of the target, and the
only one that can have been taken away. -/
theorem evolves_rename (h : w.write draft bytes = .ok w') (h' : w'.rename draft out = .ok w'') :
    w.Evolves (· = out.place w.here) (· = draft.place w.here) (fun _ => False) w'' ∧
      w''.node out = .ok (.file bytes) ∧
      (draft.place w.here ≠ out.place w.here → w''.tree.get? (draft.place w.here) = none) := by
  have hwrite := evolves_write h
  have hnode := (node_eq_ok_iff.1 (node_of_write h)).2
  obtain ⟨hdraft, hfree, rfl⟩ := write_eq_ok_iff.1 h
  obtain ⟨old, new, node, hold, hnew, hnode', htarget, rfl⟩ := rename_eq_ok_iff.1 h'
  obtain ⟨-, -, rfl⟩ := locate_eq_ok_iff.1 hold
  obtain ⟨htext, hway, rfl⟩ := locate_eq_ok_iff.1 hnew
  rw [hnode', Option.some.injEq] at hnode
  subst hnode
  dsimp only at hway hnode' htarget ⊢
  have hroot (t : Tree) {p : Place} (h : t.get? p ≠ some .directory) : p ≠ [] := by
    rintro rfl
    exact h (Tree.get?_root t)
  have hout : w.tree.get? (out.place w.here) ≠ some .directory := by
    by_cases hsame : out.place w.here = draft.place w.here
    · rwa [hsame]
    · rwa [Tree.get?_put_of_ne _ hsame] at htarget
  have htree := Tree.evolves_move hfree hout bytes
  -- from the tree with the draft on
  have hno : (w.tree.put (draft.place w.here) (.file bytes)).get? (draft.place w.here) ≠
      some .directory := by simp [hnode']
  have herase := Tree.evolves_erase hno
  have herased : ((w.tree.put (draft.place w.here) (.file bytes)).erase (draft.place w.here)).get?
      (out.place w.here) ≠ some .directory := by
    by_cases hsame : out.place w.here = draft.place w.here
    · rw [hsame, Tree.get?_erase_self _ (hroot _ hno)]
      simp
    · rwa [Tree.get?_erase_of_ne _ hsame]
  refine ⟨⟨rfl, rfl, rfl, htree, fun hw => ⟨?_, htree.directory hw.2⟩⟩, ?_, fun hne => ?_⟩
  · have hw' := (hwrite.rooted hw).1
    obtain ⟨place, name, hplace, hdir⟩ := hw'.exists_parent_of_walk
      (List.map_eq_nil_iff.not.2 (Text.pieces_ne_nil _ _))
      ((Tree.walk_eq_ok_iff _).2 ⟨hway, rfl⟩) htarget
    exact (hw'.erase hno).put herased ⟨place, name, hplace, herase.directory hdir⟩ _
  · refine node_eq_ok_iff.2 ⟨locate_eq_ok_iff.2 ⟨htext, fun q hq => ?_, rfl⟩,
      Tree.get?_put_self _ (hroot _ hout) _⟩
    exact (Tree.evolves_put_file herased bytes).directory (herase.directory (hway q hq))
  · rw [Tree.get?_put_of_ne _ hne, Tree.get?_erase_self _ (hroot _ hno)]

/-- Only a path that ends in a name is replaced: on the way of every other path, or on the way of
its draft, the place of the path is passed as a directory. -/
theorem exists_push_of_rename {process : UInt32} {number : UInt64}
    (h : w.write (out.draft process number) bytes = .ok w')
    (h' : w'.rename (out.draft process number) out = .ok w'') :
    ∃ (p : FilePath) (name : String), IsName name ∧ out = p.push name := by
  have hwrite := evolves_write h
  obtain ⟨-, new, -, -, hnew, -, htarget, -⟩ := rename_eq_ok_iff.1 h'
  obtain ⟨-, hway, rfl⟩ := locate_eq_ok_iff.1 hnew
  refine (FilePath.exists_push_or_idle out).resolve_right ?_
  rintro ⟨front, part, hparts, hidle⟩
  have hplace : out.place w'.here = Tree.next (Tree.goal (out.start w'.here) front) part := by
    rw [FilePath.place, hparts, Tree.goal_append]
    rfl
  have hfront : w'.tree.get? (Tree.goal (out.start w'.here) front) = some .directory :=
    hway _ (by rw [FilePath.way, hparts, Tree.mem_passed_concat]; exact .inr rfl)
  rcases hidle with hpart | hpart | ⟨-, hname⟩
  · exact htarget (by rw [hplace, Tree.next, if_pos (.inl hpart)]; exact hfront)
  · exact htarget (by rw [hplace, Tree.next, if_pos (.inr hpart)]; exact hfront)
  · have hdraft : out.draft process number = out.push (draftName "" process number) := by
      simp [FilePath.draft, FilePath.sibling, hname]
    obtain ⟨hlocate, -⟩ := write_eq_ok_iff.1 h
    have hpassed := (locate_eq_ok_iff.1 hlocate).2.1 (out.place w.here)
    rw [hdraft, FilePath.mem_way_push (isName_draftName (by simp) process number)] at hpassed
    refine htarget ?_
    rw [hwrite.here]
    exact hwrite.tree.directory (hpassed (.inr rfl))

/-- A name in a directory can be written beside and renamed to, unless it is a directory itself or
one is in the place of its draft. -/
theorem exists_rename {process : UInt32} {number : UInt64} {name : String} (hn : IsName name)
    (p : FilePath) (hway : ∀ q ∈ (p.push name).way w.here, w.tree.get? q = some .directory)
    (hout : w.tree.get? ((p.push name).place w.here) ≠ some .directory)
    (hdraft : w.tree.get? (((p.push name).draft process number).place w.here) ≠ some .directory)
    (bytes : ByteArray) :
    ∃ w' w'', w.write ((p.push name).draft process number) bytes = .ok w' ∧
      w'.rename ((p.push name).draft process number) (p.push name) = .ok w'' := by
  obtain ⟨d, draft, hname, hpush⟩ := (p.push name).exists_draft process number
  have hlocate : w.locate ((p.push name).draft process number) =
      .ok (((p.push name).draft process number).place w.here) := by
    refine locate_eq_ok_iff.2
      ⟨?_, fun q hq => hway q ((FilePath.mem_way_draft_push hn p).1 hq), rfl⟩
    rw [hpush]
    exact FilePath.text_push_ne_empty hname d
  obtain ⟨w', hwrite⟩ : ∃ w', w.write ((p.push name).draft process number) bytes = .ok w' :=
    ⟨_, write_eq_ok_iff.2 ⟨hlocate, hdraft, rfl⟩⟩
  have hevolves := evolves_write hwrite
  obtain ⟨hold, hnode⟩ := node_eq_ok_iff.1 (node_of_write hwrite)
  have hnew := hevolves.locate
    (locate_eq_ok_iff.2 ⟨FilePath.text_push_ne_empty hn p, hway, rfl⟩)
  have hne : (p.push name).place w.here ≠ ((p.push name).draft process number).place w.here :=
    (FilePath.place_draft_push_ne hn p w.here).symm
  have htarget : w'.tree.get? ((p.push name).place w.here) ≠ some .directory := by
    rw [hevolves.tree.get?_eq hne id id]
    exact hout
  exact ⟨w', _, hwrite, rename_eq_ok_iff.2 ⟨_, _, _, hold, hnew, hnode, htarget, rfl⟩⟩

end Workspace

end ContractBinding.Disk
