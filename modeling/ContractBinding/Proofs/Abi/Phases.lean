import ContractBinding.Proofs.Abi.Bases

/-!
# Phases of problems

The code of a problem says in which phase it arose: reading a document reports problems of the
first phase only, and resolving it problems of the second. What belongs to the making of code is
reported by neither.
-/

namespace ContractBinding.Abi

open Outcome (RefusedBy)

/-- A problem belongs to a phase. -/
def Problem.ArisesIn (phase : Phase) (problem : Problem) : Prop := problem.code.phase = phase

variable {index : Index}

theorem refusedBy_checkDeclarations (earlier index : Index) :
    RefusedBy (Problem.ArisesIn .resolve) (checkDeclarations earlier index) := by
  induction index generalizing earlier with
  | nil => exact .ok ()
  | cons entry rest ih =>
    unfold checkDeclarations
    split
    · exact .error rfl
    · split
      · exact .error rfl
      · exact ih _

theorem refusedBy_checkUnique (kind : EntryKind) (earlier names : List String) :
    RefusedBy (Problem.ArisesIn .resolve) (checkUnique kind earlier names) := by
  induction names generalizing earlier with
  | nil => exact .ok ()
  | cons name rest ih =>
    unfold checkUnique
    split
    · exact .error rfl
    · split
      · exact .error rfl
      · exact ih _

theorem refusedBy_resolveToken (site : Site) (token : String) :
    RefusedBy (Problem.ArisesIn .resolve) (resolveToken index site token) := by
  have hparse : RefusedBy (fun _ => True) (FieldType.parse token) := fun _ _ => trivial
  refine .bind (hparse.mapError fun _ _ => rfl) fun type => ?_
  split
  · split
    · exact .ok type
    · exact .error rfl
  · exact .ok type

theorem refusedBy_resolvePlain (site : Site) (token : String) :
    RefusedBy (Problem.ArisesIn .resolve) (resolvePlain index site token) := by
  refine (refusedBy_resolveToken site token).bind fun type => ?_
  split
  · exact .error rfl
  · exact .ok type.expr

theorem refusedBy_resolveAlias (a : AliasDecl) :
    RefusedBy (Problem.ArisesIn .resolve) (resolveAlias index a) :=
  (refusedBy_resolvePlain _ a.target).bind fun _ => .ok _

theorem refusedBy_checkAliasCycles (aliases : List Alias) :
    RefusedBy (Problem.ArisesIn .resolve) (checkAliasCycles aliases) := by
  refine .forM fun a _ => ?_
  split
  · exact .error rfl
  · exact .ok ()

theorem refusedBy_resolveVariant (v : VariantDecl) :
    RefusedBy (Problem.ArisesIn .resolve) (resolveVariant index v) := by
  unfold resolveVariant
  split
  · exact .error rfl
  · refine .bind (.mapM fun entry _ => ?_) fun _ => .ok _
    exact (refusedBy_resolvePlain _ entry.1).bind fun _ => .ok _

theorem refusedBy_resolveOwn (s : StructDecl) :
    RefusedBy (Problem.ArisesIn .resolve) (resolveOwn index s) :=
  .bind (.mapM fun f _ => (refusedBy_resolveToken _ f.token).bind fun _ => .ok _) fun _ => .ok _

theorem refusedBy_ancestors {own : List OwnStruct} (start : String) (visited : List Nat)
    (s : OwnStruct) :
    RefusedBy (Problem.ArisesIn .resolve) (ancestors index own start visited s) := by
  fun_induction ancestors index own start visited s with
  | case1 => exact .ok []
  | case2 => exact .error rfl
  | case3 => exact .error rfl
  | case4 visited s base hb position hl hv parent hparent ih => exact ih.bind fun _ => .ok _
  | case5 => exact .error rfl

theorem refusedBy_mergeFields (struct : String) (merged fields : List Field) :
    RefusedBy (Problem.ArisesIn .resolve) (mergeFields struct merged fields) := by
  induction fields generalizing merged with
  | nil => exact .ok merged
  | cons f rest ih =>
    unfold mergeFields
    split
    · exact .error rfl
    · exact ih _

theorem refusedBy_resolveStructs (structs : List StructDecl) :
    RefusedBy (Problem.ArisesIn .resolve) (resolveStructs index structs) := by
  refine .bind (.mapM fun s _ => refusedBy_resolveOwn s) fun own => .mapM fun entry _ => ?_
  refine (refusedBy_ancestors entry.1.name [entry.2] entry.1).bind fun above => ?_
  exact (refusedBy_mergeFields entry.1.name [] _).bind fun _ => .ok _

theorem refusedBy_resolveAction (g : Graph) (a : ActionDecl) :
    RefusedBy (Problem.ArisesIn .resolve) (resolveAction g a) := by
  unfold resolveAction
  split
  · exact .error rfl
  · exact .ok _

theorem refusedBy_resolveTable (g : Graph) (t : TableDecl) :
    RefusedBy (Problem.ArisesIn .resolve) (resolveTable g t) := by
  unfold resolveTable
  split
  · exact .error rfl
  · exact .ok _

/-- Resolving a document reports problems of its own phase. -/
theorem refusedBy_resolve (doc : Document) :
    RefusedBy (Problem.ArisesIn .resolve) (resolve doc) := by
  unfold resolve
  refine (refusedBy_checkDeclarations [] _).bind fun _ => ?_
  refine (refusedBy_checkUnique .action [] _).bind fun _ => ?_
  refine (refusedBy_checkUnique .table [] _).bind fun _ => ?_
  refine .bind (.mapM fun a _ => refusedBy_resolveAlias a) fun aliases => ?_
  refine (refusedBy_checkAliasCycles aliases).bind fun _ => ?_
  refine .bind (.mapM fun v _ => refusedBy_resolveVariant v) fun variants => ?_
  refine (refusedBy_resolveStructs doc.structs).bind fun structs => ?_
  refine .bind (.mapM fun a _ => refusedBy_resolveAction _ a) fun actions => ?_
  exact .bind (.mapM fun t _ => refusedBy_resolveTable _ t) fun _ => .ok _

/-- Reading a document reports problems of its own phase. -/
theorem refusedBy_parseDocument (s : String) :
    RefusedBy (Problem.ArisesIn .parse) (parseDocument s) := by
  have hdecode : RefusedBy (fun _ => True) (Json.Written.decodeText Document.ofWritten? s) :=
    fun _ _ => trivial
  exact hdecode.mapError fun _ _ => rfl

/-- No problem of a text on its way to a graph belongs to the making of code. -/
theorem refusedBy_loadGraph (s : String) :
    RefusedBy (fun problem => ¬ problem.ArisesIn .emit) (loadGraph s) := by
  have hother {phase : Phase} (hne : phase ≠ .emit) {problem : Problem}
      (h : problem.ArisesIn phase) : ¬ problem.ArisesIn .emit :=
    fun he => hne (h.symm.trans he)
  refine .bind (fun problem h => ?_) fun doc problem h => ?_
  · exact hother (by decide) (refusedBy_parseDocument s problem h)
  · exact hother (by decide) (refusedBy_resolve doc problem h)

end ContractBinding.Abi
