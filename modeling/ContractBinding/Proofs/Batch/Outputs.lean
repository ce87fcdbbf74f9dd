import ContractBinding.Proofs.Batch.Selection

/-!
# Where the outputs of a batch go

An output has the directory and the stem of its file. Two files share an output where they have
both in common. A file is overwritten only where it has the name of an output, and lost only where
it has that of a draft.
-/

namespace ContractBinding.Batch

open Command (Job)
open Disk (FilePath IsName Place Workspace)
open Disk.FilePath (renamed)

variable {c : Config} {w : Workspace} {s : Selected} {selected : List Selected} {check : Bool}
  {init : List String} {last name : String}

/-- The extension of outputs. -/
theorem isName_renamed_ts (hn : IsName name) : IsName (renamed name "ts") :=
  FilePath.isName_renamed hn (by decide) (by decide)

/-- An output mirrors the names of its file, the last one with another extension. -/
theorem outputPath_concat (hlast : IsName last) (c : Config) (init : List String) :
    c.outputPath (init ++ [last]) =
      (init.foldl FilePath.push (c.outputRoot.getD c.root)).push (renamed last "ts") := by
  have hne : (init ++ [last]).isEmpty = false := by simp
  simp only [Config.outputPath, hne, Bool.false_eq_true, if_false, List.foldl_append]
  exact FilePath.withExtension_push hlast (isName_renamed_ts hlast) _

theorem place_outputPath (hinit : ∀ name ∈ init, IsName name) (hlast : IsName last) (c : Config)
    (here : Place) :
    (c.outputPath (init ++ [last])).place here =
      (c.outputRoot.getD c.root).place here ++ init ++ [renamed last "ts"] := by
  rw [outputPath_concat hlast, FilePath.place_push (isName_renamed_ts hlast),
    FilePath.place_foldl_push hinit]

/-- The stem of a file is that of its last name. -/
theorem stem_foldl_push (hlast : IsName last) (root : FilePath) :
    ((init ++ [last]).foldl FilePath.push root).stem =
      String.ofList (FilePath.stemOf last.toList) := by
  rw [List.foldl_append]
  show ((init.foldl FilePath.push root).push last).stem = _
  rw [FilePath.stem, FilePath.fileName?_push hlast]
  rfl

/-- Outputs are in one place exactly where they have one path, and that is where their files share
the directory and the stem. -/
theorem outputPath_eq_iff {a b : List String} (ha : ∀ name ∈ a, IsName name) (hane : a ≠ [])
    (hb : ∀ name ∈ b, IsName name) (hbne : b ≠ []) (root : FilePath) (here : Place) :
    (c.outputPath a = c.outputPath b ↔
      a.dropLast = b.dropLast ∧
        (a.foldl FilePath.push root).stem = (b.foldl FilePath.push root).stem) ∧
    ((c.outputPath a).place here = (c.outputPath b).place here →
      c.outputPath a = c.outputPath b) := by
  obtain ⟨init, last, rfl⟩ := (List.eq_nil_or_concat' a).resolve_left hane
  obtain ⟨init', last', rfl⟩ := (List.eq_nil_or_concat' b).resolve_left hbne
  simp only [List.forall_mem_append, List.forall_mem_singleton] at ha hb
  have hplace (h : (c.outputPath (init ++ [last])).place here =
      (c.outputPath (init' ++ [last'])).place here) :
      init = init' ∧ renamed last "ts" = renamed last' "ts" := by
    rw [place_outputPath ha.1 ha.2, place_outputPath hb.1 hb.2, List.append_assoc,
      List.append_assoc, List.append_cancel_left_eq] at h
    exact List.append_singleton_inj.1 h
  have hpath (h : init = init' ∧ renamed last "ts" = renamed last' "ts") :
      c.outputPath (init ++ [last]) = c.outputPath (init' ++ [last']) := by
    rw [outputPath_concat ha.2, outputPath_concat hb.2, h.1, h.2]
  refine ⟨?_, hpath ∘ hplace⟩
  rw [List.dropLast_concat, List.dropLast_concat, stem_foldl_push ha.2, stem_foldl_push hb.2,
    String.ofList_inj, ← @FilePath.renamed_eq_iff last "ts"]
  exact ⟨fun h => hplace (by rw [h]), hpath⟩

/-- Where the root is itself a file, there is nothing else to select. -/
theorem eq_of_names_eq_nil (hw : w.WellFormed) (h : c.selection w = .ok selected) {a b : Selected}
    (ha : a ∈ selected) (hb : b ∈ selected) (hnil : a.names = []) : a = b := by
  obtain ⟨-, bytes, hfile⟩ := Workspace.mem_filesBelow_iff.1 ((mem_selection_iff h).1 ha).2.1
  obtain ⟨-, bytes', hfile'⟩ := Workspace.mem_filesBelow_iff.1 ((mem_selection_iff h).1 hb).2.1
  refine eq_of_relative_eq hw h ha hb (congrArg relativeOf ?_)
  rw [hnil, List.append_nil] at hfile
  cases hnames : b.names with
  | nil => exact hnil
  | cons name more =>
    rw [hnames] at hfile'
    have hdir := hw.1.rooted.directory_of_append (hfile'.symm ▸ Option.some_ne_none _)
    simp [hdir] at hfile

/-- Where several files are selected, they all have names. -/
theorem names_ne_nil (hw : w.WellFormed) (h : c.selection w = .ok selected) {a b : Selected}
    (ha : a ∈ selected) (hb : b ∈ selected) (hab : a ≠ b) : a.names ≠ [] :=
  fun hnil => hab (eq_of_names_eq_nil hw h ha hb hnil)

/-- An output that was written has the extension of outputs. -/
theorem exists_renamed_of_written (hroot : w.Rooted)
    (h : (c.job s).outcome check w = .ok .written) :
    ∃ (d : FilePath) (name : String), IsName name ∧
      c.outputPath s.names = d.push (renamed name "ts") := by
  have hprocessed := Job.processed (c.job s) check w
  have hroot' := hprocessed.evolves.rooted hroot
  rw [h] at hprocessed
  obtain ⟨code, -, hread⟩ := hprocessed.read_of_written
  obtain ⟨d, name, hn, hout⟩ := hroot'.exists_push_of_read hread
  rcases @FilePath.withExtension_cases "ts"
      ((if s.names.isEmpty then [""] else s.names).foldl FilePath.push (c.outputRoot.getD c.root))
      (by decide) (by decide) with
    ⟨hnone, hsame⟩ | hrenamed
  · have hname := FilePath.fileName?_push hn d
    rw [← hout, out_job, Config.outputPath, hsame, hnone] at hname
    cases hname
  · exact hrenamed

/-- An output that ends in a name ends in one that no draft has. -/
theorem unmistakable_jobs (c : Config) (selected : List Selected) :
    Job.Unmistakable (selected.map c.job) := by
  intro a ha _ _ p _ name _ _ _ hout _ hn _
  obtain ⟨s, -, rfl⟩ := List.mem_map.1 ha
  have hname := FilePath.fileName?_push hn p
  rcases @FilePath.withExtension_cases "ts"
      ((if s.names.isEmpty then [""] else s.names).foldl FilePath.push (c.outputRoot.getD c.root))
      (by decide) (by decide) with
    ⟨hnone, hsame⟩ | ⟨d, other, hn', hrenamed⟩
  · rw [← hout, out_job, Config.outputPath, hsame, hnone] at hname
    cases hname
  · have hother := FilePath.fileName?_push (isName_renamed_ts hn') d
    rw [← hrenamed, ← Config.outputPath, ← out_job, hout, hname, Option.some.injEq] at hother
    rw [hother]
    exact (Disk.draftName_ne_renamed other).symm

/-- A selected file keeps its bytes, unless it stands in the place of an output and has its
extension, or stands where a draft can be put. -/
theorem read_after (hw : w.WellFormed) (h : c.selection w = .ok selected) (hs : s ∈ selected)
    (check : Bool) :
    (Job.after check (selected.map c.job) w).read s.path = w.read s.path ∨
      ((∃ a ∈ selected, (c.outputPath a.names).place w.here = s.path.place w.here) ∧
        ∃ stem, s.path.fileName? = some (stem ++ ".ts")) ∨
      ∃ a ∈ selected, ∃ number, s.path.place w.here =
        ((c.outputPath a.names).draft w.process number).place w.here := by
  obtain ⟨hpath, hnames, -⟩ := (mem_selection_iff h).1 hs
  obtain ⟨bytes, hread⟩ := hw.read_of_mem_filesBelow hnames
  rw [← hpath] at hread
  have hevolves := Job.evolves_after check (selected.map c.job) w
  refine or_iff_not_imp_right.2 fun hno => ?_
  rw [not_or] at hno
  obtain ⟨hnoOutput, hnoDraft⟩ := hno
  rw [hread]
  refine hevolves.read hread ?_ fun hdraft => ?_
  · rintro ⟨before, j, rest, hjobs, ⟨hwritten, hplace⟩ | ⟨-, hplace⟩⟩ <;>
      obtain ⟨a, ha, rfl⟩ : ∃ a ∈ selected, c.job a = j :=
        List.mem_map.1 (hjobs ▸ List.mem_append_right _ List.mem_cons_self)
    · have hbefore := Job.evolves_after check before w
      rw [hbefore.here] at hplace
      refine hnoOutput ⟨⟨a, ha, hplace.symm⟩, ?_⟩
      obtain ⟨d, name, hn, hout⟩ := exists_renamed_of_written (hbefore.rooted hw.rooted) hwritten
      obtain ⟨d', name', hn', hs'⟩ := hw.rooted.exists_push_of_read hread
      rw [out_job, hout, hs', FilePath.place_push hn',
        FilePath.place_push (isName_renamed_ts hn)] at hplace
      have hname := (List.append_singleton_inj.1 hplace).2
      have hextension : "." ++ "ts" = ".ts" := by decide
      exact ⟨String.ofList (FilePath.stemOf name.toList), by
        rw [hs', FilePath.fileName?_push hn', hname, renamed, String.append_assoc, hextension]⟩
    · have hbefore := Job.evolves_after check before w
      rw [Workspace.draftPlace, hbefore.here, hbefore.process] at hplace
      exact hnoDraft ⟨a, ha, _, hplace⟩
  · obtain ⟨j, hj, number, hplace⟩ := Job.exists_of_mem_drafts hdraft
    obtain ⟨a, ha, rfl⟩ := List.mem_map.1 hj
    exact hnoDraft ⟨a, ha, number, hplace⟩

/-- Two selected files share an output exactly where they share the directory and the stem. A
selected file changes only where it is an output itself, and has the extension of one, or where it
has the name of a draft of an output for the process that runs. -/
theorem outputs_of_selection (hw : w.WellFormed)
    (h : ((selectFiles c : StateM Workspace _).run w).1 = .ok selected) (check : Bool) :
    (∀ a ∈ selected, ∀ b ∈ selected, a ≠ b →
      (c.outputPath a.names = c.outputPath b.names ↔
        a.names.dropLast = b.names.dropLast ∧ a.path.stem = b.path.stem)) ∧
    ∀ s ∈ selected,
      ((run c check : StateM Workspace _).run w).2.read s.path = w.read s.path ∨
        ((∃ a ∈ selected, (c.outputPath a.names).place w.here = s.path.place w.here) ∧
          ∃ stem, s.path.fileName? = some (stem ++ ".ts")) ∨
        ∃ a ∈ selected, ∃ number, s.path.place w.here =
          ((c.outputPath a.names).draft w.process number).place w.here := by
  refine ⟨fun a ha b hb hab => ?_, fun s hs => ?_⟩
  · rw [((mem_selection_iff h).1 ha).1, ((mem_selection_iff h).1 hb).1]
    exact (outputPath_eq_iff (isName_of_mem_selection hw h ha) (names_ne_nil hw h ha hb hab)
      (isName_of_mem_selection hw h hb) (names_ne_nil hw h hb ha hab.symm) c.root w.here).1
  · rw [run_of_selection h (List.ne_nil_of_mem hs)]
    exact read_after hw h hs check

/-- Two files with one stem in the root: the first has the name of their output, and no code. -/
def sharedOutput : Workspace := .ofTexts [("a.ts", "["), ("a.txt", "{}")]

/-- The two files of `sharedOutput`. -/
def sharingFiles : List Selected := [⟨["a.ts"], ⟨"/a.ts"⟩⟩, ⟨["a.txt"], ⟨"/a.txt"⟩⟩]

theorem selection_sharedOutput :
    ({ Config.ofRoot with included := ["a.*"] } : Config).selection sharedOutput =
      .ok sharingFiles := by
  refine selection_eq_ok_iff.2 ⟨_, _, rfl, rfl, rfl, ?_⟩
  rw [select, List.mergeSort_of_pairwise]
  · decide +kernel
  · decide +kernel

theorem outputs_of_sharedOutput :
    (∀ a ∈ sharingFiles, ∀ b ∈ sharingFiles, a ≠ b →
      (({ Config.ofRoot with included := ["a.*"] } : Config).outputPath a.names =
          ({ Config.ofRoot with included := ["a.*"] } : Config).outputPath b.names ↔
        a.names.dropLast = b.names.dropLast ∧ a.path.stem = b.path.stem)) ∧
    ∀ s ∈ sharingFiles,
      ((run { Config.ofRoot with included := ["a.*"] } false :
          StateM Workspace _).run sharedOutput).2.read s.path = sharedOutput.read s.path ∨
        ((∃ a ∈ sharingFiles,
          (({ Config.ofRoot with included := ["a.*"] } : Config).outputPath a.names).place [] =
            s.path.place []) ∧
          ∃ stem, s.path.fileName? = some (stem ++ ".ts")) ∨
        ∃ a ∈ sharingFiles, ∃ number, s.path.place [] =
          ((({ Config.ofRoot with included := ["a.*"] } : Config).outputPath a.names).draft 1
            number).place [] :=
  outputs_of_selection (by decide) selection_sharedOutput false

/-- Two files in the root: the first has no code and the name of the first draft for the second. -/
def draftNamed : Workspace := .ofTexts [(".a.ts.1.0.tmp", "["), ("a.abi", "{}")]

/-- The two files of `draftNamed`. -/
def draftNamedFiles : List Selected :=
  [⟨[".a.ts.1.0.tmp"], ⟨"/.a.ts.1.0.tmp"⟩⟩, ⟨["a.abi"], ⟨"/a.abi"⟩⟩]

theorem selection_draftNamed :
    ({ Config.ofRoot with included := ["*"] } : Config).selection draftNamed =
      .ok draftNamedFiles := by
  refine selection_eq_ok_iff.2 ⟨_, _, rfl, rfl, rfl, ?_⟩
  rw [select, List.mergeSort_of_pairwise]
  · decide +kernel
  · decide +kernel

/-- Both files of `sharedOutput` get one output, and the code of the second overwrites the first;
the first file of `draftNamed` is overwritten by the draft for the second, and gone with it. -/
theorem output_shared_and_overwritten :
    (sharedOutput.WellFormed ∧
      ((selectFiles { Config.ofRoot with included := ["a.*"] } :
        StateM Workspace _).run sharedOutput).1 = .ok sharingFiles ∧
      ({ Config.ofRoot with included := ["a.*"] } : Config).outputPath ["a.ts"] =
        ({ Config.ofRoot with included := ["a.*"] } : Config).outputPath ["a.txt"] ∧
      sharedOutput.read ⟨"/a.ts"⟩ = .ok "[".toUTF8 ∧
      ((run { Config.ofRoot with included := ["a.*"] } false :
        StateM Workspace _).run sharedOutput).2.read ⟨"/a.ts"⟩ ≠ .ok "[".toUTF8) ∧
    draftNamed.WellFormed ∧
      ((selectFiles { Config.ofRoot with included := ["*"] } :
        StateM Workspace _).run draftNamed).1 = .ok draftNamedFiles ∧
      draftNamed.read ⟨"/.a.ts.1.0.tmp"⟩ = .ok "[".toUTF8 ∧
      ((run { Config.ofRoot with included := ["*"] } false :
        StateM Workspace _).run draftNamed).2.read ⟨"/.a.ts.1.0.tmp"⟩ = .error .notFound := by
  refine ⟨⟨by decide, selection_sharedOutput, by decide, by decide +kernel, fun hread => ?_⟩,
    by decide, selection_draftNamed, by decide +kernel, ?_⟩
  · rw [run_of_selection selection_sharedOutput (by decide)] at hread
    exact absurd (congrArg (Except.map ByteArray.size) hread) (by decide +kernel)
  · rw [run_of_selection selection_draftNamed (by decide)]
    decide +kernel

end ContractBinding.Batch
