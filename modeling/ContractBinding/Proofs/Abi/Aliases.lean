import ContractBinding.Proofs.Abi.Tokens

/-!
# Alias links

An alias without arrays links its name to another. The check for cycles passes exactly when no
walk along such links comes back to where it has been, and then the bounded walk of a graph is
long enough: what it ends at is no alias.
-/

namespace ContractBinding.Abi

open Relation

/-- The alias `a` of a list stands for the name `b`, without arrays. -/
def LinkIn (aliases : List Alias) (a b : String) : Prop :=
  ∃ entry ∈ aliases, entry.name = a ∧ entry.target = .named b

section Walk

variable {aliases : List Alias}

-- Distinct names make the links of one name agree.
private theorem target_of_linkIn (hd : (aliases.map Alias.name).Nodup) {a : Alias}
    (ha : a ∈ aliases) {b : String} (h : LinkIn aliases a.name b) : a.target = .named b := by
  obtain ⟨entry, hm, hname, htarget⟩ := h
  rwa [List.inj_on_of_nodup_map hd hm ha hname] at htarget

/-- A walk that ends passes nothing that was visited before it. -/
theorem not_mem_visited_of_revisited? (hd : (aliases.map Alias.name).Nodup)
    {visited : List String} {expr : TypeExpr} (h : revisited? aliases visited expr = none)
    {next passed : String} (hnext : expr = .named next)
    (hlink : ReflTransGen (LinkIn aliases) next passed)
    (hpassed : passed ∈ aliases.map Alias.name) : passed ∉ visited := by
  fun_induction revisited? aliases visited expr generalizing next with
  | case1 visited name hf =>
    cases hnext
    have hno := find?_name_eq_none_iff.1 hf
    rcases hlink.cases_head with rfl | ⟨c, ⟨entry, hm, hname, -⟩, -⟩
    · exact absurd hpassed hno
    · exact absurd (List.mem_map.2 ⟨entry, hm, hname⟩) hno
  | case2 visited name a hf hv => simp at h
  | case3 visited name a hf hv ih =>
    cases hnext
    obtain ⟨ha, rfl⟩ := (find?_name_eq_some_iff hd).1 hf
    rcases hlink.cases_head with rfl | ⟨c, hc, hrest⟩
    · exact hv
    · have hout := ih h (target_of_linkIn hd ha hc) hrest
      exact fun hm => hout (List.mem_cons_of_mem _ hm)
  | case4 visited expr hother => exact absurd hnext (hother next)

/-- Where links have no cycle, a walk that follows links from all it has visited ends. -/
theorem revisited?_eq_none (hd : (aliases.map Alias.name).Nodup)
    (hacyclic : ∀ name, ¬ TransGen (LinkIn aliases) name name) {visited : List String}
    {expr : TypeExpr} (hvisited : ∀ next, expr = .named next → ∀ v ∈ visited,
      TransGen (LinkIn aliases) v next) : revisited? aliases visited expr = none := by
  fun_induction revisited? aliases visited expr with
  | case1 visited name hf => rfl
  | case2 visited name a hf hv => exact absurd (hvisited name rfl name hv) (hacyclic name)
  | case3 visited name a hf hv ih =>
    obtain ⟨ha, rfl⟩ := (find?_name_eq_some_iff hd).1 hf
    apply ih
    intro next hnext v hm
    have hlink : LinkIn aliases a.name next := ⟨a, ha, rfl, hnext⟩
    rcases List.mem_cons.1 hm with rfl | hm
    · exact TransGen.single hlink
    · exact (hvisited _ rfl v hm).tail hlink
  | case4 visited expr hother => rfl

/-- The check for cycles passes exactly when no name links back to itself. -/
theorem checkAliasCycles_eq_ok_iff (hd : (aliases.map Alias.name).Nodup) :
    checkAliasCycles aliases = .ok () ↔ ∀ name, ¬ TransGen (LinkIn aliases) name name := by
  have hwalks : checkAliasCycles aliases = .ok () ↔
      ∀ a ∈ aliases, revisited? aliases [a.name] a.target = none := by
    unfold checkAliasCycles
    rw [Outcome.forM_eq_ok_iff]
    apply forall₂_congr
    intro a _
    cases revisited? aliases [a.name] a.target <;> simp
  rw [hwalks]
  constructor
  · intro h name hcycle
    obtain ⟨c, hc, hback⟩ := TransGen.head'_iff.1 hcycle
    obtain ⟨a, ha, rfl, htarget⟩ := hc
    have hout := not_mem_visited_of_revisited? hd (h a ha) htarget hback
      (List.mem_map_of_mem ha)
    exact hout (List.mem_singleton_self _)
  · intro hacyclic a ha
    apply revisited?_eq_none hd hacyclic
    intro next hnext v hv
    rw [List.mem_singleton.1 hv]
    exact TransGen.single ⟨a, ha, rfl, hnext⟩

/-- One step of the walk along aliases: from a name that is not visited to the type of its
alias. -/
inductive AliasStep (aliases : List Alias) :
    List String × TypeExpr → List String × TypeExpr → Prop where
  | follow {visited : List String} {a : Alias}
    (hf : aliases.find? (fun entry => entry.name = a.name) = some a) (hv : a.name ∉ visited) :
    AliasStep aliases (visited, .named a.name) (a.name :: visited, a.target)

/-- The walk takes such steps. -/
theorem AliasStep.revisited?_eq {before after : List String × TypeExpr}
    (h : AliasStep aliases before after) :
    revisited? aliases before.1 before.2 = revisited? aliases after.1 after.2 := by
  obtain ⟨hf, hv⟩ := h
  conv_lhs => unfold revisited?
  split
  · next hnone => simp [hf] at hnone
  · next a hf' =>
    cases hf.symm.trans hf'
    rw [dif_neg hv]

/-- Every walk along aliases ends, whatever the links are. -/
theorem aliasStep_wellFounded (aliases : List Alias) :
    WellFounded fun after before => AliasStep aliases before after := by
  refine Subrelation.wf ?_
    (measure fun state : List String × TypeExpr =>
      unvisited (aliases.map Alias.name) state.1).wf
  rintro _ _ ⟨hf, hv⟩
  exact unvisited_cons_lt (List.mem_map_of_mem (List.mem_of_find?_eq_some hf)) hv

end Walk

namespace Graph

variable {g : Graph}

/-- The graph finds under a name the alias that has it. -/
def FindsAliases (g : Graph) : Prop :=
  ∀ name a, g.alias? name = some a ↔ a ∈ g.aliases ∧ a.name = name

/-- A type stands for what alias links lead to from it: a type that is no alias. -/
inductive StandsFor (g : Graph) : TypeExpr → TypeExpr → Prop where
  | self {expr : TypeExpr} (h : ∀ name, expr = .named name → g.alias? name = none) :
    StandsFor g expr expr
  | link {name : String} {a : Alias} {expr : TypeExpr} (h : g.alias? name = some a)
    (ht : StandsFor g a.target expr) : StandsFor g (.named name) expr

/-- A type stands for one type only. -/
theorem StandsFor.unique {expr t u : TypeExpr} (ht : g.StandsFor expr t)
    (hu : g.StandsFor expr u) : t = u := by
  induction ht with
  | self h =>
    cases hu with
    | self _ => rfl
    | link ha _ => simp [h _ rfl] at ha
  | link ha _ ih =>
    cases hu with
    | self h => simp [h _ rfl] at ha
    | link ha' hu =>
      cases ha.symm.trans ha'
      exact ih hu

/-- What a type stands for is no alias. -/
theorem StandsFor.alias?_eq_none {expr : TypeExpr} {name : String}
    (h : g.StandsFor expr (.named name)) : g.alias? name = none := by
  generalize ht : TypeExpr.named name = t at h
  induction h with
  | self h => exact h name ht.symm
  | link _ _ ih => exact ih ht

/-- With a step for every alias that the walk has not visited and one more, the walk ends. -/
theorem standsFor_follow (hd : (g.aliases.map Alias.name).Nodup) (hfind : g.FindsAliases)
    {steps : Nat} {visited : List String} {expr : TypeExpr}
    (hsteps : unvisited (g.aliases.map Alias.name) visited < steps)
    (hwalk : revisited? g.aliases visited expr = none) :
    g.StandsFor expr (g.follow steps expr) := by
  induction steps generalizing visited expr with
  | zero => omega
  | succ steps ih =>
    cases expr with
    | primitive p => exact .self (fun _ h => nomatch h)
    | array element => exact .self (fun _ h => nomatch h)
    | named name =>
      unfold follow
      cases ha : g.alias? name with
      | none =>
        refine .self ?_
        intro other h
        cases h
        exact ha
      | some a =>
        obtain ⟨hm, hname⟩ := (hfind name a).1 ha
        have hf := (find?_name_eq_some_iff hd).2 ⟨hm, hname⟩
        unfold revisited? at hwalk
        split at hwalk
        · next hnone => simp [hf] at hnone
        · next a' hf' =>
          cases hf.symm.trans hf'
          split at hwalk
          · simp at hwalk
          · next hv =>
            have hlt := unvisited_cons_lt (List.mem_map.2 ⟨a, hm, hname⟩) hv
            exact .link ha (ih (by omega) hwalk)

/-- Where alias links have no cycle, the walk of a graph ends at what a type stands for. -/
theorem standsFor_behind (hd : (g.aliases.map Alias.name).Nodup) (hfind : g.FindsAliases)
    (hacyclic : ∀ name, ¬ TransGen (LinkIn g.aliases) name name) (expr : TypeExpr) :
    g.StandsFor expr (g.behind expr) := by
  have hbound := unvisited_le_length (g.aliases.map Alias.name) []
  rw [List.length_map] at hbound
  exact standsFor_follow hd hfind (Nat.lt_succ_of_le hbound)
    (revisited?_eq_none hd hacyclic (fun _ _ _ hv => nomatch hv))

/-- A name stands for another exactly when links lead from the one to the other and on to none. -/
theorem standsFor_named_iff (hfind : g.FindsAliases) {a b : String} :
    g.StandsFor (.named a) (.named b) ↔
      ReflTransGen (LinkIn g.aliases) a b ∧ g.alias? b = none := by
  constructor
  · intro h
    refine ⟨?_, h.alias?_eq_none⟩
    generalize hs : TypeExpr.named a = s at h
    generalize ht : TypeExpr.named b = t at h
    induction h generalizing a with
    | self _ =>
      cases hs
      cases ht
      exact .refl
    | @link _ x _ ha htarget ih =>
      cases hs
      rw [hfind] at ha
      cases hx : x.target with
      | named next => exact .head ⟨x, ha.1, ha.2, hx⟩ (ih hx.symm ht)
      | primitive p =>
        rw [hx, ← ht] at htarget
        cases htarget
      | array element =>
        rw [hx, ← ht] at htarget
        cases htarget
  · rintro ⟨hlinks, hb⟩
    induction hlinks using ReflTransGen.head_induction_on with
    | refl =>
      refine .self ?_
      intro name h
      cases h
      exact hb
    | head hlink _ ih =>
      obtain ⟨entry, hm, hname, htarget⟩ := hlink
      exact .link ((hfind _ entry).2 ⟨hm, hname⟩) (htarget ▸ ih)

end Graph

/-- Resolved aliases have a target of some kind exactly where the document has one. -/
theorem exists_alias_iff {doc : Document} {index : Index} {aliases : List Alias}
    (h : doc.aliases.mapM (resolveAlias index) = .ok aliases) {a : String}
    (kind : TypeExpr → Prop) :
    (∃ entry ∈ aliases, entry.name = a ∧ kind entry.target) ↔
      ∃ decl ∈ doc.aliases, decl.name = a ∧
        ∃ type, FieldType.parse decl.target = .ok type ∧ kind type.expr := by
  rw [Outcome.mapM_eq_ok_iff] at h
  constructor
  · rintro ⟨entry, hm, rfl, htarget⟩
    obtain ⟨decl, hdecl, hr⟩ := Outcome.exists_mem_left h hm
    obtain ⟨hname, hr⟩ := resolveAlias_eq_ok_iff.1 hr
    exact ⟨decl, hdecl, hname.symm, _, (resolvePlain_eq_ok_iff.1 hr).1, htarget⟩
  · rintro ⟨decl, hdecl, rfl, type, hread, htarget⟩
    obtain ⟨entry, hm, hr⟩ := Outcome.exists_mem_right h hdecl
    obtain ⟨hname, hr⟩ := resolveAlias_eq_ok_iff.1 hr
    refine ⟨entry, hm, hname, ?_⟩
    cases hread.symm.trans (resolvePlain_eq_ok_iff.1 hr).1
    exact htarget

/-- The links of resolved aliases are those of the document. -/
theorem linkIn_iff_aliasLink {doc : Document} {index : Index} {aliases : List Alias}
    (h : doc.aliases.mapM (resolveAlias index) = .ok aliases) {a b : String} :
    LinkIn aliases a b ↔ doc.AliasLink a b :=
  exists_alias_iff h (· = .named b)

/-- The links of resolved aliases, as a relation, are those of the document. -/
theorem linkIn_eq_aliasLink {doc : Document} {index : Index} {aliases : List Alias}
    (h : doc.aliases.mapM (resolveAlias index) = .ok aliases) : LinkIn aliases = doc.AliasLink := by
  funext a b
  exact propext (linkIn_iff_aliasLink h)

/-- Resolved aliases have the names of the document. -/
theorem map_name_aliases {index : Index} {decls : List AliasDecl} {aliases : List Alias}
    (h : decls.mapM (resolveAlias index) = .ok aliases) :
    aliases.map Alias.name = decls.map AliasDecl.name :=
  (Outcome.map_eq_map (Outcome.mapM_eq_ok_iff.1 h)
    fun _ _ hr => (resolveAlias_eq_ok_iff.1 hr).1.symm).symm

end ContractBinding.Abi
