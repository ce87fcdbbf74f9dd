import ContractBinding.Proofs.Abi.Resolution

/-!
# Chains of aliases

From a type alias links lead along a chain, which passes the names of aliases. A chain that ends at
a type that is no alias passes none of them twice, so it has no more links than there are aliases:
the walk of a graph, which counts its steps and does not look out for cycles, always comes to that
end before its steps run out.
-/

namespace ContractBinding.Abi

namespace Graph

variable {g : Graph} {expr t u : TypeExpr} {names other : List String} {steps : Nat}

/-- A type that is no alias. -/
def Settled (g : Graph) (expr : TypeExpr) : Prop :=
  ∀ name, expr = .named name → g.alias? name = none

/-- Alias links lead from a type to another and pass these names. -/
inductive Chain (g : Graph) : TypeExpr → List String → TypeExpr → Prop where
  | here (expr : TypeExpr) : Chain g expr [] expr
  | link {name : String} {a : Alias} {names : List String} {expr : TypeExpr}
    (ha : g.alias? name = some a) (hc : Chain g a.target names expr) :
    Chain g (.named name) (name :: names) expr

/-- Follow alias links to a type that is no alias, and give nothing where the steps run out before
one is looked at. -/
def settle? (g : Graph) : Nat → TypeExpr → Option TypeExpr
  | 0, _ => none
  | steps + 1, .named name =>
    match g.alias? name with
    | some a => g.settle? steps a.target
    | none => some (.named name)
  | _ + 1, expr => some expr

/-! ### The end of a chain -/

/-- A type that is not named is no alias. -/
theorem settled_of_ne_named (h : ∀ name, expr ≠ .named name) : g.Settled expr :=
  fun name hname => absurd hname (h name)

/-- A name that no alias has is no alias. -/
theorem settled_named_iff {name : String} :
    g.Settled (.named name) ↔ g.alias? name = none := by
  constructor
  · exact fun h => h name rfl
  · rintro h other hother
    cases hother
    exact h

/-- From one type there is one chain to a type that is no alias. -/
theorem Chain.unique (hc : g.Chain expr names t) (ht : g.Settled t)
    (ho : g.Chain expr other u) (hu : g.Settled u) : names = other ∧ t = u := by
  induction hc generalizing other with
  | here =>
    cases ho with
    | here => exact ⟨rfl, rfl⟩
    | link ha _ => simp [settled_named_iff.1 ht] at ha
  | link ha _ ih =>
    cases ho with
    | here => simp [settled_named_iff.1 hu] at ha
    | link ha' ho =>
      cases ha.symm.trans ha'
      obtain ⟨rfl, rfl⟩ := ih ht ho
      exact ⟨rfl, rfl⟩

/-- A chain goes on from every name that it passes. -/
theorem Chain.exists_suffix (hc : g.Chain expr names t) {name : String} (hm : name ∈ names) :
    ∃ rest, rest <:+ names ∧ g.Chain (.named name) rest t := by
  induction hc with
  | here => cases hm
  | @link first _ rest _ ha hc ih =>
    rcases List.mem_cons.1 hm with rfl | hm
    · exact ⟨_, List.suffix_refl _, .link ha hc⟩
    · obtain ⟨rest, hsuffix, hc⟩ := ih hm
      exact ⟨rest, hsuffix.trans (List.suffix_cons _ _), hc⟩

/-- A chain passes names of aliases only. -/
theorem Chain.isSome_alias? (hc : g.Chain expr names t) {name : String} (hm : name ∈ names) :
    (g.alias? name).isSome = true := by
  induction hc with
  | here => cases hm
  | link ha _ ih =>
    rcases List.mem_cons.1 hm with rfl | hm
    · rw [ha, Option.isSome_some]
    · exact ih hm

/-- A chain that ends passes no alias twice: it would go on from there as it did before. -/
theorem Chain.nodup (hc : g.Chain expr names t) (ht : g.Settled t) : names.Nodup := by
  induction hc with
  | here => exact List.nodup_nil
  | @link name _ rest _ ha hc ih =>
    -- The chain from the second visit is a part of the one from the first, and the same one.
    refine List.nodup_cons.2 ⟨fun hm => ?_, ih ht⟩
    obtain ⟨again, hsuffix, hagain⟩ := hc.exists_suffix hm
    have hsame : again = name :: rest := (hagain.unique ht (.link ha hc) ht).1
    have hlength := hsuffix.length_le
    rw [hsame, List.length_cons] at hlength
    omega

/-- What a type stands for is the end of its chain. -/
theorem standsFor_iff_chain :
    g.StandsFor expr t ↔ (∃ names, g.Chain expr names t) ∧ g.Settled t := by
  constructor
  · intro h
    induction h with
    | self hself => exact ⟨⟨[], .here _⟩, hself⟩
    | link ha _ ih =>
      obtain ⟨⟨names, hc⟩, ht⟩ := ih
      exact ⟨⟨_, .link ha hc⟩, ht⟩
  · rintro ⟨⟨names, hc⟩, ht⟩
    induction hc with
    | here => exact .self ht
    | link ha _ ih => exact .link ha (ih ht)

/-! ### Counted walks -/

/-- A counted walk comes to an end by itself exactly where the chain has fewer links than the walk
has steps. -/
theorem settle?_eq_some_iff : g.settle? steps expr = some t ↔
    ∃ names, g.Chain expr names t ∧ g.Settled t ∧ names.length < steps := by
  induction steps generalizing expr with
  | zero => simp [settle?]
  | succ steps ih =>
    -- The walk ends at once where its type is no alias, and so does the chain.
    have hstop (hexpr : g.Settled expr) : some expr = some t ↔
        ∃ names, g.Chain expr names t ∧ g.Settled t ∧ names.length < steps + 1 := by
      constructor
      · intro heq
        cases heq
        exact ⟨[], .here _, hexpr, Nat.succ_pos _⟩
      · rintro ⟨names, hc, ht, -⟩
        rw [(hc.unique ht (.here expr) hexpr).2]
    cases expr with
    | primitive p => exact hstop (settled_of_ne_named nofun)
    | array element => exact hstop (settled_of_ne_named nofun)
    | named name =>
      unfold settle?
      cases ha : g.alias? name with
      | none => exact hstop (settled_named_iff.2 ha)
      | some a =>
        rw [ih]
        constructor
        · rintro ⟨names, hc, ht, hlt⟩
          exact ⟨name :: names, .link ha hc, ht, Nat.succ_lt_succ hlt⟩
        · rintro ⟨names, hc, ht, hlt⟩
          cases hc with
          | here => simp [settled_named_iff.1 ht] at ha
          | link ha' hc =>
            cases ha.symm.trans ha'
            exact ⟨_, hc, ht, Nat.lt_of_succ_lt_succ hlt⟩

/-- Where a counted walk comes to an end by itself, its end is what following gives. -/
theorem follow_of_settle? (h : g.settle? steps expr = some t) : g.follow steps expr = t := by
  induction steps generalizing expr with
  | zero => simp [settle?] at h
  | succ steps ih =>
    cases expr with
    | primitive p => exact Option.some.inj h
    | array element => exact Option.some.inj h
    | named name =>
      unfold settle? at h
      unfold follow
      cases ha : g.alias? name with
      | none =>
        rw [ha] at h
        exact Option.some.inj h
      | some a =>
        rw [ha] at h
        exact ih h

end Graph

namespace ResolvedTypes

variable {doc : Document} {g : Graph} {expr t : TypeExpr} {names : List String}

/-- A chain that ends has no more links than there are aliases. -/
theorem length_le_of_chain (h : ResolvedTypes doc g) (hc : g.Chain expr names t)
    (ht : g.Settled t) : names.length ≤ g.aliases.length := by
  have hsubset : names ⊆ g.aliases.map Alias.name := by
    intro name hm
    obtain ⟨a, ha⟩ := Option.isSome_iff_exists.1 (hc.isSome_alias? hm)
    obtain ⟨hin, rfl⟩ := h.alias?_eq_some_iff.1 ha
    exact List.mem_map_of_mem hin
  calc names.length
      ≤ (g.aliases.map Alias.name).length := (hc.nodup ht).length_le_of_subset hsubset
    _ = g.aliases.length := List.length_map _

/-- What is behind a type is the end of its chain. -/
theorem behind_eq_iff_chain (h : ResolvedTypes doc g) :
    g.behind expr = t ↔ (∃ names, g.Chain expr names t) ∧ g.Settled t := by
  rw [h.behind_eq_iff, Graph.standsFor_iff_chain]

end ResolvedTypes

/-- Following the aliases of a graph comes to an end from every type, and the end is the type that
is left when no alias is. -/
structure AliasesEnd (g : Graph) : Prop where
  settled : ∀ expr, g.Settled (g.behind expr)
  /-- Nothing but alias links leads there, and no alias is passed twice. -/
  chain : ∀ expr, ∃ names, g.Chain expr names (g.behind expr) ∧ names.Nodup ∧
    names.length ≤ g.aliases.length
  /-- No other end can be reached. -/
  only : ∀ expr names t, g.Chain expr names t → g.Settled t → t = g.behind expr
  target : ∀ a ∈ g.aliases, g.behind (.named a.name) = g.behind a.target
  again : ∀ expr, g.behind (g.behind expr) = g.behind expr
  /-- One step more than there are aliases, or more, and the walk ends by itself. -/
  enough : ∀ expr steps, g.aliases.length < steps →
    g.settle? steps expr = some (g.behind expr) ∧ g.follow steps expr = g.behind expr

/-- The aliases of a resolved document come to an end. -/
theorem aliasesEnd_of_resolve {doc : Document} {g : Graph} (h : resolve doc = .ok g) :
    AliasesEnd g := by
  have hg := (resolve_eq_ok_iff.1 h).toResolvedTypes
  have hend (expr : TypeExpr) :
      (∃ names, g.Chain expr names (g.behind expr)) ∧ g.Settled (g.behind expr) :=
    hg.behind_eq_iff_chain.1 rfl
  constructor
  case settled => exact fun expr => (hend expr).2
  case chain =>
    intro expr
    obtain ⟨⟨names, hc⟩, ht⟩ := hend expr
    exact ⟨names, hc, hc.nodup ht, hg.length_le_of_chain hc ht⟩
  case only =>
    intro expr names t hc ht
    exact (hg.behind_eq_iff_chain.2 ⟨⟨names, hc⟩, ht⟩).symm
  case target =>
    intro a ha
    obtain ⟨⟨names, hc⟩, ht⟩ := hend a.target
    have hfound : g.alias? a.name = some a := hg.alias?_eq_some_iff.2 ⟨ha, rfl⟩
    exact hg.behind_eq_iff_chain.2 ⟨⟨_, .link hfound hc⟩, ht⟩
  case again =>
    intro expr
    exact hg.behind_eq_iff_chain.2 ⟨⟨[], .here _⟩, (hend expr).2⟩
  case enough =>
    intro expr steps hsteps
    obtain ⟨⟨names, hc⟩, ht⟩ := hend expr
    have hsettle : g.settle? steps expr = some (g.behind expr) :=
      Graph.settle?_eq_some_iff.2
        ⟨names, hc, ht, Nat.lt_of_le_of_lt (hg.length_le_of_chain hc ht) hsteps⟩
    exact ⟨hsettle, Graph.follow_of_settle? hsettle⟩

/-- A contract that renames the number of a seat twice. -/
def seating : Document where
  version := none
  aliases := [⟨"seat", "place"⟩, ⟨"place", "uint8"⟩]
  structs := []
  actions := []
  tables := []
  variants := []

/-- The graph of that contract. -/
def seatingGraph : Graph where
  version := none
  aliases := [⟨"seat", .named "place"⟩, ⟨"place", .primitive .uint8⟩]
  structs := []
  actions := []
  tables := []
  variants := []
  index := [("seat", .alias 0), ("place", .alias 1)]

-- As many steps as there are aliases would run out: the end of the chain has to be looked at too.
example : seatingGraph.settle? 2 (.named "seat") = none := by decide

theorem seating_aliasesEnd : resolve seating = .ok seatingGraph ∧ AliasesEnd seatingGraph ∧
    seatingGraph.settle? 3 (.named "seat") = some (.primitive .uint8) := by
  have hresolve : resolve seating = .ok seatingGraph :=
    Outcome.eq_ok_of_toOption (by decide +kernel)
  have hends := aliasesEnd_of_resolve hresolve
  exact ⟨hresolve, hends, (hends.enough (.named "seat") 3 (by decide)).1⟩

end ContractBinding.Abi
