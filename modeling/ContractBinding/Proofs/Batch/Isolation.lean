import ContractBinding.Proofs.Command.Apart
import ContractBinding.Proofs.Command.Frame
import ContractBinding.Proofs.Text.ByteOrder

/-!
# Batches whose files keep apart

Where no output gets in the way of another file, each entry of a batch says what its file comes to
alone, whatever becomes of the others.
-/

namespace ContractBinding.Batch

open Command (Invocation Job)
open Disk (FilePath IsName Workspace)
open Disk.FilePath (renamed)
open Text (bytesOf)

variable {c : Config} {w : Workspace} {check : Bool} {s : Selected} {selected : List Selected}

/-- No output is another selected file, another output or above another output. -/
def Config.KeepsApart (c : Config) (w : Workspace) (selected : List Selected) : Prop :=
  ∀ a ∈ selected, ∀ b ∈ selected, a ≠ b →
    ¬ (c.outputPath a.names).place w.here <+: (c.outputPath b.names).place w.here ∧
      (c.outputPath a.names).place w.here ≠ b.path.place w.here

instance (c : Config) (w : Workspace) (selected : List Selected) :
    Decidable (c.KeepsApart w selected) :=
  inferInstanceAs (Decidable (∀ a ∈ selected, ∀ b ∈ selected, _ → _ ∧ _))

/-- Nothing is where the process can put drafts, and no output goes through there. -/
def Config.DraftsFree (c : Config) (w : Workspace) (selected : List Selected) : Prop :=
  ∀ a ∈ selected, ∀ number,
    w.tree.get? (((c.outputPath a.names).draft w.process number).place w.here) = none ∧
      ∀ b ∈ selected, ¬ ((c.outputPath a.names).draft w.process number).place w.here <+:
        (c.outputPath b.names).place w.here

/-- A run that goes as if every selected file had been alone. -/
structure Isolated (c : Config) (check : Bool) (w : Workspace) (selected : List Selected)
    (report : Report) (w' : Workspace) : Prop where
  run : (run c check : StateM Workspace _).run w =
    (if selected = [] then .error (.nothingSelected c.root) else .ok report, w')
  /-- The selected files are those below the root that the configuration chooses. -/
  complete : ∀ names, (∃ s ∈ selected, s.names = names) ↔
    names ∈ w.filesBelow c.root ∧ c.Chooses (relativeOf names)
  /-- They are in the order of the bytes of their paths, none of them twice. -/
  sorted : selected.Pairwise fun a b => bytesOf a.relative < bytesOf b.relative
  /-- Every entry is the one that its file has alone. -/
  entries : report.entries =
    selected.map fun s => entryOf c s ((process c check s : StateM Workspace _).run w).1
  /-- Every output is the one that its file leaves alone. -/
  outputs : ∀ s ∈ selected, w'.node (c.outputPath s.names) =
    ((process c check s : StateM Workspace _).run w).2.node (c.outputPath s.names)
  failed : report.failed =
    (report.entries.filter fun e => e.status = .drift ∨ e.status = .failed).length
  ok : report.ok = true ↔ report.failed = 0
  /-- The command fails exactly where an entry has failed or nothing was selected. -/
  exit : ∀ arguments named showsJson,
    Invocation.ofArguments arguments = .ok (.batch named check showsJson) →
    ((Config.load named : StateM Workspace _).run w).1 = .ok c →
    (((Command.runLine arguments : StateM Workspace _).run w).1.code ≠ 0 ↔
      selected = [] ∨ report.failed ≠ 0)

/-- Jobs whose outcomes are those that they have alone. -/
def Alone (c : Config) (check : Bool) (w : Workspace) (selected : List Selected) : Prop :=
  Job.outcomes check (selected.map c.job) w = selected.map (fun s => (c.job s).outcome check w) ∧
    ∀ s ∈ selected, (Job.after check (selected.map c.job) w).node (c.outputPath s.names) =
      ((c.job s).leave check w).node (c.outputPath s.names)

theorem alone_of_check (c : Config) (w : Workspace) (selected : List Selected) :
    Alone c true w selected := by
  refine ⟨by rw [Job.outcomes_of_check, List.map_map]; rfl, fun s _ => ?_⟩
  rw [Job.after_eq_of_check, (Job.processed (c.job s) true w).eq_of_check]

theorem plain_job (hw : w.WellFormed) (h : c.selection w = .ok selected) (hs : s ∈ selected)
    (hnames : s.names ≠ []) (hdirect : (c.outputPath s.names).Direct w)
    (hdrafts : c.DraftsFree w selected) : (c.job s).Plain w := by
  have hproper := isName_of_mem_selection hw h hs
  obtain ⟨init, last, hlast⟩ := (List.eq_nil_or_concat' s.names).resolve_left hnames
  rw [hlast, List.forall_mem_append, List.forall_mem_singleton] at hproper
  have hout := outputPath_concat hproper.2 c init
  rw [← hlast] at hout
  rw [← out_job] at hout hdirect
  refine ⟨⟨_, _, isName_renamed_ts hproper.2, hout⟩, hdirect, fun number => ?_⟩
  rw [Job.draft, out_job]
  exact (hdrafts s hs number).1

theorem read_abi_job (hw : w.WellFormed) (h : c.selection w = .ok selected) (hs : s ∈ selected) :
    ∃ bytes, w.read (c.job s).abi = .ok bytes := by
  obtain ⟨hpath, hfile, -⟩ := (mem_selection_iff h).1 hs
  rw [abi_job, hpath]
  exact hw.read_of_mem_filesBelow hfile

theorem apart_jobs (h : c.selection w = .ok selected) (hapart : c.KeepsApart w selected)
    (hdrafts : c.DraftsFree w selected) : (selected.map c.job).Pairwise (Job.Apart w) := by
  refine List.pairwise_map.2 ((nodup_selection h).imp_of_mem fun ha hb hab => ?_)
  have hdraft {s t : Selected} (hs : s ∈ selected) (ht : t ∈ selected) (number : UInt64) :
      ¬ (c.job s).draft w number <+: (c.job t).out.place w.here := by
    rw [Job.draft, out_job, out_job]
    exact (hdrafts s hs number).2 t ht
  obtain ⟨habove, hfile⟩ := hapart _ ha _ hb hab
  obtain ⟨hbelow, -⟩ := hapart _ hb _ ha hab.symm
  rw [← out_job, ← out_job] at habove hbelow
  rw [← out_job, ← abi_job c] at hfile
  exact ⟨habove, hbelow, hfile, hdraft ha hb, hdraft hb ha⟩

/-- Where it is not a single file that is selected, all of them have names. -/
theorem names_ne_nil_of_several (hw : w.WellFormed) (h : c.selection w = .ok selected)
    (hone : ¬ ∃ s, selected = [s]) (hs : s ∈ selected) : s.names ≠ [] := by
  obtain ⟨b, hb, hsb⟩ : ∃ b ∈ selected, s ≠ b := by
    by_contra hall
    have hsame : ∀ b ∈ selected, b = s := fun b hb =>
      by_contra fun hne => hall ⟨b, hb, Ne.symm hne⟩
    have hnodup := nodup_selection h
    rw [List.eq_replicate_of_mem hsame, List.nodup_replicate] at hnodup
    have hlength : selected.length = 1 := Nat.le_antisymm hnodup (List.length_pos_of_mem hs)
    exact hone (List.length_eq_one_iff.1 hlength)
  exact names_ne_nil hw h hs hb hsb

theorem alone_of_keepsApart (hw : w.WellFormed) (h : c.selection w = .ok selected)
    (hapart : c.KeepsApart w selected)
    (hdirect : ∀ s ∈ selected, (c.outputPath s.names).Direct w)
    (hdrafts : c.DraftsFree w selected) : Alone c false w selected := by
  by_cases hone : ∃ s, selected = [s]
  · -- a single file is alone, also where it is the root itself and its output has no name
    obtain ⟨s, rfl⟩ := hone
    refine ⟨rfl, fun a ha => ?_⟩
    rw [List.mem_singleton.1 ha]
    rfl
  · have hplain : ∀ j ∈ selected.map c.job, j.Plain w :=
      List.forall_mem_map.2 fun s hs =>
        plain_job hw h hs (names_ne_nil_of_several hw h hone hs) (hdirect s hs) hdrafts
    have hread : ∀ j ∈ selected.map c.job, ∃ bytes, w.read j.abi = .ok bytes :=
      List.forall_mem_map.2 fun s hs => read_abi_job hw h hs
    obtain ⟨houtcomes, hafter⟩ := Job.run_of_apart hw.rooted hplain hread
      (apart_jobs h hapart hdrafts)
    rw [List.map_map] at houtcomes
    exact ⟨houtcomes, List.forall_mem_map.1 hafter⟩

theorem failed_eq (report : Report) : report.failed =
    (report.entries.filter fun e => e.status = .drift ∨ e.status = .failed).length := by
  rw [Report.failed, List.countP_eq_length_filter]
  congr 2
  funext e
  cases e.status <;> rfl

/-- The command fails exactly where an entry has failed or nothing was selected. -/
theorem code_ne_zero_iff (h : c.selection w = .ok selected) {arguments : List String}
    {named : Option FilePath} {showsJson : Bool}
    (harguments : Invocation.ofArguments arguments = .ok (.batch named check showsJson))
    (hload : ((Config.load named : StateM Workspace _).run w).1 = .ok c) :
    ((Command.runLine arguments : StateM Workspace _).run w).1.code ≠ 0 ↔
      selected = [] ∨ ({ check, entries := entries c check selected w } : Report).failed ≠ 0 := by
  obtain ⟨-, hexit⟩ := Command.run_runLine harguments w
  have hfailure := (Command.run_runBatch named check showsJson w).2
  have hjobs : Invocation.jobs w (.batch named check showsJson) = selected.map c.job := by
    simp only [Invocation.jobs, hload, h]
  rw [hjobs, ← ok_iff] at hfailure
  rw [Ne, hexit]
  show ¬ ((Command.runBatch named check showsJson : StateM Workspace _).run w).1.failure = none ↔
    _
  rw [hfailure, not_and_or, Report.ok, decide_eq_true_iff, not_not, List.map_eq_nil_iff]

/-- A file in the root that generates, and one that does not. -/
def oneFails : Workspace := .ofTexts [("a.abi", "{}"), ("b.abi", "[")]

theorem selection_oneFails : Config.ofRoot.selection oneFails = .ok twoFiles := by
  refine selection_eq_ok_iff.2 ⟨_, _, rfl, rfl, rfl, ?_⟩
  rw [select, List.mergeSort_of_pairwise] <;> decide +kernel

/-- Neither of the two files of `oneFails` is named as a draft. -/
theorem draftsFree_oneFails : Config.ofRoot.DraftsFree oneFails twoFiles := by
  have hget (name : String) (ha : name ≠ "a.abi") (hb : name ≠ "b.abi") :
      oneFails.tree.get? [name] = none := by
    show ((({} : Disk.Tree).put ["b.abi"] _).put ["a.abi"] _).get? [name] = none
    rw [Disk.Tree.get?_put_of_ne _ (by simpa using ha),
      Disk.Tree.get?_put_of_ne _ (by simpa using hb)]
    rfl
  have hout (last : String) (hlast : IsName last) : Config.ofRoot.outputPath [last] =
      (FilePath.mk "/").push (renamed last "ts") := outputPath_concat hlast Config.ofRoot []
  have hnames : ∀ s ∈ twoFiles, ∃ last, IsName last ∧ s.names = [last] := by
    intro s hs
    simp only [twoFiles, List.mem_cons, List.not_mem_nil, or_false] at hs
    rcases hs with rfl | rfl
    · exact ⟨"a.abi", by decide, rfl⟩
    · exact ⟨"b.abi", by decide, rfl⟩
  have hroot : (FilePath.mk "/").place oneFails.here = [] := by decide
  intro a ha number
  obtain ⟨last, hlast, ha⟩ := hnames a ha
  rw [ha, hout last hlast, FilePath.place_draft_push (isName_renamed_ts hlast), hroot,
    List.nil_append]
  refine ⟨hget _ (Disk.draftName_ne_of_head (by decide)) (Disk.draftName_ne_of_head (by decide)),
    fun b hb hprefix => ?_⟩
  obtain ⟨last', hlast', hb⟩ := hnames b hb
  rw [hb, hout last' hlast', FilePath.place_push (isName_renamed_ts hlast'), hroot,
    List.nil_append] at hprefix
  exact Disk.draftName_ne_renamed last' (List.cons_prefix_cons.1 hprefix).1

/-- Outputs that go up from an empty place. -/
def goingUp : Config := { Config.ofRoot with outputRoot := some ⟨"/x/../y"⟩ }

/-- Two files that generate, the second to an output that cannot be read once there is a directory
`x`. -/
def unreadable : Workspace where
  tree := ((Workspace.ofTexts [("a.abi", "{}"), ("b.abi", "{}")]).tree.put ["y"] .directory).put
    ["y", "b.ts"] (.file ⟨#[255]⟩)

theorem selection_unreadable : goingUp.selection unreadable = .ok twoFiles := by
  refine selection_eq_ok_iff.2 ⟨_, _, rfl, rfl, rfl, ?_⟩
  rw [select, List.mergeSort_of_pairwise] <;> decide +kernel

/-- A batch that keeps its outputs apart, and in which a file that would generate alone fails. -/
def Disturbed (c : Config) (w : Workspace) (selected : List Selected) : Prop :=
  w.WellFormed ∧ ((selectFiles c : StateM Workspace _).run w).1 = .ok selected ∧
    c.KeepsApart w selected ∧
    (∀ s ∈ selected, ((process c false s : StateM Workspace _).run w).1 = .ok .written) ∧
    ((run c false : StateM Workspace _).run w).1.map
      (fun report => report.entries.map Entry.status) = .ok [.written, .failed]

theorem disturbed_unreadable : Disturbed goingUp unreadable twoFiles := by
  refine ⟨by decide, selection_unreadable, by decide +kernel, by decide +kernel, ?_⟩
  rw [run_of_selection selection_unreadable (by decide)]
  decide +kernel

/-- Every file is selected, and the outputs go to a directory below the root. -/
def intoRoot : Config := { Config.ofRoot with included := ["*"], outputRoot := some ⟨"/o"⟩ }

/-- Two files that generate, the second where the first draft for the first one goes. -/
def overwritten : Workspace where
  tree := (((Workspace.ofTexts []).tree.put ["o"] .directory).put ["o", ".a.ts.1.0.tmp"]
    (.file "{}".toUTF8)).put ["a.abi"] (.file "{}".toUTF8)

/-- The two files of `overwritten`. -/
def overwrittenFiles : List Selected :=
  [⟨["a.abi"], ⟨"/a.abi"⟩⟩, ⟨["o", ".a.ts.1.0.tmp"], ⟨"/o/.a.ts.1.0.tmp"⟩⟩]

theorem selection_overwritten : intoRoot.selection overwritten = .ok overwrittenFiles := by
  refine selection_eq_ok_iff.2 ⟨_, _, rfl, rfl, rfl, ?_⟩
  rw [select, List.mergeSort_of_pairwise] <;> decide +kernel

theorem disturbed_overwritten : Disturbed intoRoot overwritten overwrittenFiles := by
  refine ⟨by decide, selection_overwritten, by decide +kernel, by decide +kernel, ?_⟩
  rw [run_of_selection selection_overwritten (by decide)]
  decide +kernel

end ContractBinding.Batch
