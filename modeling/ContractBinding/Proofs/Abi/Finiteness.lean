import ContractBinding.Proofs.Abi.Descent

/-!
# Aliases of finite types

An alias stands for a finite type unless it lies on the way down from its own target. The check for
cycles compares aliases without arrays only, so an accepted alias may come back to itself inside an
array, and then its type is infinite. Where none does, and only there, every way down a type ends.
-/

namespace ContractBinding.Abi

open Relation

/-- The target of the alias `a` is the name `b` or an array above it, of any depth. -/
def Document.Mention (doc : Document) (a b : String) : Prop :=
  ∃ decl ∈ doc.aliases, decl.name = a ∧
    ∃ type, FieldType.parse decl.target = .ok type ∧ type.expr.namedRef? = some b

/-- No alias lies on the way down from its own target. -/
def Graph.FiniteAliases (g : Graph) : Prop :=
  ∀ a ∈ g.aliases, ¬ ReflTransGen g.Link a.target (.named a.name)

namespace Graph

variable {g : Graph} {expr : TypeExpr} {n : Nat}

/-- The way down a type comes to the name below its arrays. -/
theorem reach_namedRef {name : String} (h : expr.namedRef? = some name) :
    ReflTransGen g.Link expr (.named name) := by
  induction expr with
  | primitive p => simp [TypeExpr.namedRef?] at h
  | named other =>
    cases h
    exact .refl
  | array element ih => exact .head (.element element) (ih h)

/-- A way down that ends can be descended by recursion. -/
theorem Descends.acc (hn : g.Descends expr n) : Acc (fun next expr => g.Link expr next) expr := by
  induction hn with
  | stop h => exact ⟨_, fun next hlink => absurd hlink (h next)⟩
  | step hlink _ ih => exact ⟨_, fun next hlink' => hlink.unique hlink' ▸ ih⟩

end Graph

namespace ResolvedTypes

variable {doc : Document} {g : Graph}

/-- An alias mentions the name below the arrays of its target. -/
theorem mention_iff (h : ResolvedTypes doc g) {a b : String} :
    doc.Mention a b ↔ ∃ x, g.alias? a = some x ∧ x.target.namedRef? = some b := by
  simp only [h.alias?_eq_some_iff, and_assoc]
  exact (exists_alias_iff h.aliases (·.namedRef? = some b)).symm

/-- The names that ways down lead to from an alias are those that the targets of the document
mention one after the other. -/
theorem transGen_link_iff (h : ResolvedTypes doc g) {a b : String} :
    TransGen g.Link (.named a) (.named b) ↔ TransGen doc.Mention a b := by
  constructor
  · -- On the way down an array keeps the name below it, so a new name is that of a new alias.
    have hway {expr : TypeExpr} (hway : TransGen g.Link (.named a) expr) (b : String)
        (hb : expr.namedRef? = some b) : TransGen doc.Mention a b := by
      induction hway generalizing b with
      | single hlink =>
        cases hlink with
        | target ha => exact .single (h.mention_iff.2 ⟨_, ha, hb⟩)
      | tail _ hlink ih =>
        cases hlink with
        | element _ => exact ih b hb
        | target ha => exact (ih _ rfl).tail (h.mention_iff.2 ⟨_, ha, hb⟩)
    exact fun hlinks => hway hlinks b rfl
  · have hdown {a b : String} (hab : doc.Mention a b) :
        TransGen g.Link (.named a) (.named b) := by
      obtain ⟨x, ha, htarget⟩ := h.mention_iff.1 hab
      exact .head' (.target ha) (Graph.reach_namedRef htarget)
    intro hmentions
    induction hmentions with
    | single hab => exact hdown hab
    | tail _ hab ih => exact ih.trans (hdown hab)

/-- An alias lies on the way down from its target exactly when its name leads back to itself. -/
theorem reach_self_iff (h : ResolvedTypes doc g) {a : Alias} (ha : a ∈ g.aliases) :
    ReflTransGen g.Link a.target (.named a.name) ↔
      TransGen g.Link (.named a.name) (.named a.name) := by
  have hlink : g.Link (.named a.name) a.target := .target (h.alias?_eq_some_iff.2 ⟨ha, rfl⟩)
  constructor
  · exact fun hreach => .head' hlink hreach
  · intro hcycle
    obtain ⟨next, hnext, hreach⟩ := TransGen.head'_iff.1 hcycle
    rwa [hnext.unique hlink] at hreach

/-- Aliases stand for finite types exactly when no alias of the document mentions itself by way
of others. -/
theorem finiteAliases_iff_mention (h : ResolvedTypes doc g) :
    g.FiniteAliases ↔ ∀ name, ¬ TransGen doc.Mention name name := by
  constructor
  · intro hfinite name hcycle
    obtain ⟨next, hfirst, -⟩ := TransGen.head'_iff.1 hcycle
    obtain ⟨a, halias, -⟩ := h.mention_iff.1 hfirst
    obtain ⟨ha, rfl⟩ := h.alias?_eq_some_iff.1 halias
    exact hfinite a ha ((h.reach_self_iff ha).2 (h.transGen_link_iff.2 hcycle))
  · intro hacyclic a ha hreach
    exact hacyclic a.name (h.transGen_link_iff.1 ((h.reach_self_iff ha).1 hreach))

/-- Aliases stand for finite types exactly when the way down every type ends. -/
theorem finiteAliases_iff_descends (h : ResolvedTypes doc g) :
    g.FiniteAliases ↔ ∀ expr, ∃ n, g.Descends expr n := by
  constructor
  · exact fun hfinite => h.exists_descends fun a ha => mt (h.reach_self_iff ha).2 (hfinite a ha)
  · intro hends a ha hreach
    obtain ⟨n, hn⟩ := hends (.named a.name)
    exact hn.not_cycle ((h.reach_self_iff ha).1 hreach)

/-- Aliases stand for finite types exactly when ways down can be descended by recursion. -/
theorem finiteAliases_iff_wellFounded (h : ResolvedTypes doc g) :
    g.FiniteAliases ↔ WellFounded fun next expr => g.Link expr next := by
  constructor
  · intro hfinite
    refine ⟨fun expr => ?_⟩
    obtain ⟨n, hn⟩ := h.finiteAliases_iff_descends.1 hfinite expr
    exact hn.acc
  · intro hwf
    refine h.finiteAliases_iff_descends.2 fun expr => ?_
    induction expr using hwf.induction with
    | _ expr ih =>
      by_cases hnext : ∃ next, g.Link expr next
      · obtain ⟨next, hlink⟩ := hnext
        obtain ⟨n, hn⟩ := ih next hlink
        exact ⟨n + 1, .step hlink hn⟩
      · exact ⟨0, .stop (not_exists.1 hnext)⟩

end ResolvedTypes

end ContractBinding.Abi
