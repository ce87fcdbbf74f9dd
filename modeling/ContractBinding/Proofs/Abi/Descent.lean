import ContractBinding.Proofs.Abi.Resolution
import Mathlib.Algebra.Order.BigOperators.Group.List
import Mathlib.Algebra.Order.Group.Nat

/-!
# Ways down a type

From an array the way down goes on to its elements, from an alias to its target. There is one way
down from every type. It either ends, and then it passes no alias twice and its length is bounded,
or it comes to an alias that leads back to itself.
-/

namespace ContractBinding.Abi

open Relation

namespace Graph

variable {g : Graph} {expr next t : TypeExpr} {m n : Nat}

/-- One step down a type. -/
inductive Link (g : Graph) : TypeExpr → TypeExpr → Prop where
  | element (element : TypeExpr) : Link g (.array element) element
  | target {name : String} {a : Alias} (ha : g.alias? name = some a) :
    Link g (.named name) a.target

/-- The way down a type ends after a number of steps. -/
inductive Descends (g : Graph) : TypeExpr → Nat → Prop where
  | stop {expr : TypeExpr} (h : ∀ next, ¬ g.Link expr next) : Descends g expr 0
  | step {expr next : TypeExpr} {n : Nat} (h : g.Link expr next) (hd : Descends g next n) :
    Descends g expr (n + 1)

/-- The way down a type never ends. -/
def Endless (g : Graph) (expr : TypeExpr) : Prop := ∀ n, ¬ g.Descends expr n

/-- There is one step down at most. -/
theorem Link.unique (h : g.Link expr next) (ht : g.Link expr t) : next = t := by
  cases h with
  | element _ =>
    cases ht
    rfl
  | target ha =>
    cases ht with
    | target ha' =>
      cases ha.symm.trans ha'
      rfl

/-- A way down has one length. -/
theorem Descends.unique (hm : g.Descends expr m) (hn : g.Descends expr n) : m = n := by
  induction hm generalizing n with
  | stop h =>
    cases hn with
    | stop _ => rfl
    | step hlink _ => exact absurd hlink (h _)
  | step hlink _ ih =>
    cases hn with
    | stop h => exact absurd hlink (h _)
    | step hlink' hd =>
      cases hlink.unique hlink'
      rw [ih hd]

/-- What lies down the way has a shorter way down. -/
theorem Descends.of_transGen (hn : g.Descends expr n) (h : TransGen g.Link expr t) :
    ∃ m < n, g.Descends t m := by
  have hstep {expr t : TypeExpr} {n : Nat} (hn : g.Descends expr n) (hlink : g.Link expr t) :
      ∃ m < n, g.Descends t m := by
    cases hn with
    | stop h => exact absurd hlink (h _)
    | step hlink' hd => exact ⟨_, Nat.lt_succ_self _, hlink.unique hlink' ▸ hd⟩
  induction h with
  | single hlink => exact hstep hn hlink
  | tail _ hlink ih =>
    obtain ⟨m, hm, hd⟩ := ih
    obtain ⟨k, hk, hd⟩ := hstep hd hlink
    exact ⟨k, Nat.lt_trans hk hm, hd⟩

/-- No type whose way down ends lies on its own way down. -/
theorem Descends.not_cycle (hn : g.Descends expr n) : ¬ TransGen g.Link expr expr := by
  intro h
  obtain ⟨m, hm, hd⟩ := hn.of_transGen h
  exact absurd (hd.unique hn) (Nat.ne_of_lt hm)

/-- Where the way down from what lies on it ends, so does the way from the type. -/
theorem exists_descends_of_reach (h : ReflTransGen g.Link expr t) (hm : g.Descends t m) :
    ∃ n, m ≤ n ∧ g.Descends expr n := by
  induction h using ReflTransGen.head_induction_on with
  | refl => exact ⟨m, Nat.le_refl m, hm⟩
  | head hlink _ ih =>
    obtain ⟨n, hn, hd⟩ := ih
    exact ⟨n + 1, Nat.le_succ_of_le hn, .step hlink hd⟩

/-- What a type stands for lies on its way down. -/
theorem StandsFor.reach (ht : g.StandsFor expr t) : ReflTransGen g.Link expr t := by
  induction ht with
  | self _ => exact .refl
  | link ha _ ih => exact .head (.target ha) ih

/-- The end of the way down lies below everything else on it. -/
theorem reach_end (h : ReflTransGen g.Link expr next) (ht : ReflTransGen g.Link expr t)
    (hend : g.Descends t 0) : ReflTransGen g.Link next t := by
  have hunique : Relator.RightUnique g.Link := fun _ _ _ => Link.unique
  rcases ReflTransGen.total_of_right_unique hunique h ht with hdown | hup
  · exact hdown
  · rcases reflTransGen_iff_eq_or_transGen.1 hup with rfl | hup
    · exact .refl
    · obtain ⟨m, hm, -⟩ := hend.of_transGen hup
      exact absurd hm (Nat.not_lt_zero m)

/-- A way down has one end. -/
theorem end_unique (h : ReflTransGen g.Link expr next) (ht : ReflTransGen g.Link expr t)
    (hend : g.Descends next 0) (hend' : g.Descends t 0) : next = t := by
  rcases reflTransGen_iff_eq_or_transGen.1 (reach_end h ht hend') with heq | hdown
  · exact heq.symm
  · obtain ⟨m, hm, -⟩ := hend.of_transGen hdown
    exact absurd hm (Nat.not_lt_zero m)

/-- A built-in type leads to no other. -/
theorem descends_primitive (p : Primitive) : g.Descends (.primitive p) 0 := .stop nofun

/-- A name that is no alias leads to no other type. -/
theorem descends_named {name : String} (h : g.alias? name = none) :
    g.Descends (.named name) 0 := by
  apply Descends.stop
  intro next hlink
  cases hlink with
  | target ha => simp [h] at ha

end Graph

namespace ResolvedTypes

variable {doc : Document} {g : Graph} {expr : TypeExpr} {n : Nat}

-- The way down visits aliases, from each of which it leads to where it is. An alias that it comes
-- to again leads back to itself.
private theorem descends_or_cycle (h : ResolvedTypes doc g) {levels : Nat}
    (hlevels : ∀ a ∈ g.aliases, a.target.depth ≤ levels) (expr : TypeExpr) (visited : List String)
    (hv : ∀ v ∈ visited, TransGen g.Link (.named v) expr) :
    (∃ n ≤ expr.depth + unvisited (g.aliases.map Alias.name) visited * (levels + 1),
        g.Descends expr n) ∨
      ∃ name, ReflTransGen g.Link expr (.named name) ∧
        TransGen g.Link (.named name) (.named name) := by
  induction hleft : unvisited (g.aliases.map Alias.name) visited using Nat.strong_induction_on
    generalizing visited expr with
  | _ left ih =>
    induction expr with
    | primitive p => exact .inl ⟨0, Nat.zero_le _, Graph.descends_primitive p⟩
    | array element ihe =>
      have hlink : g.Link (.array element) element := .element element
      rcases ihe fun v hm => (hv v hm).tail hlink with ⟨n, hn, hd⟩ | ⟨name, hreach, hcycle⟩
      · refine .inl ⟨n + 1, ?_, .step hlink hd⟩
        rw [TypeExpr.depth]
        omega
      · exact .inr ⟨name, .head hlink hreach, hcycle⟩
    | named name =>
      cases ha : g.alias? name with
      | none => exact .inl ⟨0, Nat.zero_le _, Graph.descends_named ha⟩
      | some a =>
        by_cases hm : name ∈ visited
        · exact .inr ⟨name, .refl, hv name hm⟩
        · obtain ⟨haliases, hname⟩ := h.alias?_eq_some_iff.1 ha
          have hlink : g.Link (.named name) a.target := .target ha
          have hlt := unvisited_cons_lt (List.mem_map.2 ⟨a, haliases, hname⟩) hm
          have hvisited : ∀ v ∈ name :: visited, TransGen g.Link (.named v) a.target :=
            List.forall_mem_cons.2 ⟨.single hlink, fun v hm => (hv v hm).tail hlink⟩
          rcases ih _ (hleft ▸ hlt) _ _ hvisited rfl with ⟨n, hn, hd⟩ | ⟨other, hreach, hcycle⟩
          · refine .inl ⟨n + 1, ?_, .step hlink hd⟩
            have hdepth := hlevels a haliases
            have hfewer := Nat.mul_le_mul_right (levels + 1) (Nat.succ_le_of_lt (hleft ▸ hlt))
            rw [Nat.succ_mul] at hfewer
            omega
          · exact .inr ⟨other, .head hlink hreach, hcycle⟩

/-- A way down that ends has no more steps than the array levels of its aliases allow. -/
theorem descends_le (h : ResolvedTypes doc g) {levels : Nat}
    (hlevels : ∀ a ∈ g.aliases, a.target.depth ≤ levels) (hn : g.Descends expr n) :
    n ≤ expr.depth + g.aliases.length * (levels + 1) := by
  rcases h.descends_or_cycle hlevels expr [] nofun with
    ⟨m, hm, hd⟩ | ⟨name, hreach, hcycle⟩
  · have hall := Nat.mul_le_mul_right (levels + 1)
      (unvisited_le_length (g.aliases.map Alias.name) [])
    rw [List.length_map] at hall
    rw [hn.unique hd]
    omega
  · rcases reflTransGen_iff_eq_or_transGen.1 hreach with rfl | hreach
    · exact absurd hcycle hn.not_cycle
    · obtain ⟨m, -, hd⟩ := hn.of_transGen hreach
      exact absurd hcycle hd.not_cycle

/-- Where no alias leads back to itself, every way down ends. -/
theorem exists_descends (h : ResolvedTypes doc g)
    (hacyclic : ∀ a ∈ g.aliases, ¬ TransGen g.Link (.named a.name) (.named a.name))
    (expr : TypeExpr) : ∃ n, g.Descends expr n := by
  have hlevels : ∀ a ∈ g.aliases, a.target.depth ≤ (g.aliases.map (·.target.depth)).sum :=
    fun a ha => List.le_sum_of_mem (List.mem_map_of_mem ha)
  rcases h.descends_or_cycle hlevels expr [] nofun with
    ⟨n, -, hd⟩ | ⟨name, -, hcycle⟩
  · exact ⟨n, hd⟩
  · obtain ⟨next, hlink, -⟩ := TransGen.head'_iff.1 hcycle
    cases hlink with
    | target ha =>
      obtain ⟨hm, rfl⟩ := h.alias?_eq_some_iff.1 ha
      exact absurd hcycle (hacyclic _ hm)

end ResolvedTypes

end ContractBinding.Abi
