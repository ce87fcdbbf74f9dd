import ContractBinding.Proofs.Abi.Finiteness
import ContractBinding.Proofs.Table.Rich

/-!
# Searches of finite types

A search that is never cut short ends at every type where the aliases stand for finite types, and
only there: at an accepted alias that comes back to itself inside an array it goes on for ever.
-/

namespace ContractBinding.Table

open Abi (Graph ResolvedTypes)
open Relation

variable {doc : Abi.Document} {g : Graph} {expr : TypeExpr}

/-- A search that ends has come to the end of the way down the type that it looked at first. -/
theorem exists_descends_of_search (hg : ResolvedTypes doc g) {exprs : List TypeExpr}
    {seen last : List String} {found : Bool}
    (h : Search g (fun _ => False) exprs seen found last) (hfirst : exprs.head? = some expr) :
    ∃ n, g.Descends expr n := by
  have hbehind {expr t : TypeExpr} {n : Nat} (ht : g.behind expr = t) (hn : g.Descends t n) :
      ∃ n, g.Descends expr n := by
    obtain ⟨m, -, hm⟩ :=
      Graph.exists_descends_of_reach (ht ▸ hg.standsFor_behind expr).reach hn
    exact ⟨m, hm⟩
  have hnamed {expr : TypeExpr} {name : String} (ht : g.behind expr = .named name) :
      ∃ n, g.Descends expr n :=
    hbehind ht (Graph.descends_named (ht ▸ hg.standsFor_behind expr).alias?_eq_none)
  induction h generalizing expr with
  | none => cases hfirst
  | scalar ht _ | plain ht _ _ =>
    cases hfirst
    exact hbehind ht (Graph.descends_primitive _)
  | items ht _ ih =>
    cases hfirst
    obtain ⟨n, hn⟩ := ih rfl
    exact hbehind ht (.step (.element _) hn)
  | again ht _ _ | fields ht _ _ _ | branches ht _ _ _ | other ht _ _ _ _ =>
    cases hfirst
    exact hnamed ht
  | giveUp h _ => exact h.elim

/-- Where aliases stand for finite types, a search ends by itself with what a coercer says. -/
theorem finds_isRich (hg : ResolvedTypes doc g) (hfinite : g.FiniteAliases) (expr : TypeExpr) :
    Finds g expr ((Coercer.ofGraph g).isRich expr) := by
  obtain ⟨last, hs⟩ := exists_search hg expr
  refine ⟨last, hs.mono fun e hendless => ?_⟩
  obtain ⟨n, hn⟩ := hg.finiteAliases_iff_descends.1 hfinite e
  exact hendless n hn

/-- No alias of an accepted document leads back to itself by links without arrays. By aliases and
arrays together none does exactly when the aliases of the document, read with their arrays, have
no cycle; exactly then recursions along aliases and arrays end, and exactly then every search for
richer values does, with what a coercer says. -/
theorem finiteAliases_iff (h : Abi.resolve doc = .ok g) :
    (∀ name, ¬ TransGen doc.AliasLink name name) ∧
      (g.FiniteAliases ↔ ∀ name, ¬ TransGen doc.Mention name name) ∧
      (g.FiniteAliases ↔ WellFounded fun next expr => g.Link expr next) ∧
      (g.FiniteAliases ↔ ∀ expr, ∃ found, Finds g expr found) ∧
      (g.FiniteAliases → ∀ expr, Finds g expr ((Coercer.ofGraph g).isRich expr)) := by
  have hr := Abi.resolve_eq_ok_iff.1 h
  have hg := hr.toResolvedTypes
  refine ⟨?_, hg.finiteAliases_iff_mention, hg.finiteAliases_iff_wellFounded, ⟨?_, ?_⟩,
    finds_isRich hg⟩
  · exact Abi.linkIn_eq_aliasLink hr.aliases ▸ hr.acyclic
  · exact fun hfinite expr => ⟨_, finds_isRich hg hfinite expr⟩
  · intro hfinds
    refine hg.finiteAliases_iff_descends.2 fun expr => ?_
    obtain ⟨found, last, hs⟩ := hfinds expr
    exact exists_descends_of_search hg hs rfl

/-- The children of a parent come to an end: they are children, which are no alias. -/
theorem finiteAliases_kin : Abi.resolve kin = .ok kinGraph ∧ kinGraph.FiniteAliases ∧
    Finds kinGraph (.named "children") true := by
  have hresolve : Abi.resolve kin = .ok kinGraph := Outcome.eq_ok_of_toOption (by decide +kernel)
  have hmention {a b : String} (hab : kin.Mention a b) : a = "children" ∧ b = "child" := by
    obtain ⟨decl, hdecl, rfl, type, hread, hb⟩ := hab
    cases List.mem_singleton.1 hdecl
    have hchild : FieldType.parse "child[]" = .ok ⟨.array (.named "child"), false, false⟩ := by rfl
    cases hchild.symm.trans hread
    cases hb
    exact ⟨rfl, rfl⟩
  have hacyclic : ∀ name, ¬ TransGen kin.Mention name name := by
    intro name hcycle
    obtain ⟨b, hfirst, -⟩ := TransGen.head'_iff.1 hcycle
    obtain ⟨c, -, hlast⟩ := TransGen.tail'_iff.1 hcycle
    exact absurd ((hmention hfirst).1.symm.trans (hmention hlast).2) (by decide)
  obtain ⟨-, hfinite, -, -, hfinds⟩ := finiteAliases_iff hresolve
  exact ⟨hresolve, hfinite.2 hacyclic, hfinds (hfinite.2 hacyclic) _⟩

/-- A tree is its branches, which are trees. -/
def tree : Abi.Document where
  version := none
  aliases := [⟨"tree", "branches"⟩, ⟨"branches", "tree[]"⟩]
  structs := []
  actions := []
  tables := []
  variants := []

/-- The graph of the tree. -/
def treeGraph : Graph where
  version := none
  aliases := [⟨"tree", .named "branches"⟩, ⟨"branches", .array (.named "tree")⟩]
  structs := []
  actions := []
  tables := []
  variants := []
  index := [("tree", .alias 0), ("branches", .alias 1)]

/-- The tree is accepted and lies on the way down from its target, and no search of it ends. -/
theorem tree_infinite : Abi.resolve tree = .ok treeGraph ∧
    (∃ a ∈ treeGraph.aliases, ReflTransGen treeGraph.Link a.target (.named a.name)) ∧
    ∀ found, ¬ Finds treeGraph (.named "tree") found := by
  have hresolve : Abi.resolve tree = .ok treeGraph := Outcome.eq_ok_of_toOption (by decide +kernel)
  have htree : treeGraph.Link (.named "tree") (.named "branches") :=
    .target (show treeGraph.alias? "tree" = some ⟨"tree", .named "branches"⟩ from rfl)
  have hbranches : treeGraph.Link (.named "branches") (.array (.named "tree")) :=
    .target (show treeGraph.alias? "branches" = some ⟨"branches", .array (.named "tree")⟩ from rfl)
  have hback : ReflTransGen treeGraph.Link (.named "branches") (.named "tree") :=
    .head hbranches (.single (.element _))
  refine ⟨hresolve, ⟨_, List.mem_cons_self .., hback⟩, ?_⟩
  rintro found ⟨last, hs⟩
  obtain ⟨n, hn⟩ :=
    exists_descends_of_search (Abi.resolve_eq_ok_iff.1 hresolve).toResolvedTypes hs rfl
  exact hn.not_cycle (.head' htree hback)

end ContractBinding.Table
