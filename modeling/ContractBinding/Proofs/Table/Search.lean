import ContractBinding.Proofs.Abi.Descent
import ContractBinding.Table.Coercion

/-!
# Searches for richer values

A search looks at types one after the other, and the fields of a struct take the place of the
struct. The bounded search of a coercer has the result of such a search: its bound is never what
ends it, but for types whose way down has no end and on which no richer value can be found.
-/

namespace ContractBinding.Table

open Abi (Graph ResolvedTypes unvisited)

variable {doc : Abi.Document} {g : Graph} {givenUp : TypeExpr → Prop} {expr : TypeExpr}
  {exprs rest : List TypeExpr} {seen last : List String} {steps : Nat}

/-- A search of types, the first of them first, from the names that it came to earlier: whether it
finds a richer value, and which names it has come to at its end. A type at which it gives up
counts as one without a richer value. -/
inductive Search (g : Graph) (givenUp : TypeExpr → Prop) :
    List TypeExpr → List String → Bool → List String → Prop where
  | none {seen : List String} : Search g givenUp [] seen false seen
  | scalar {expr : TypeExpr} {rest : List TypeExpr} {seen : List String} {p : Primitive}
    (ht : g.behind expr = .primitive p) (hk : p.reinterpretation?.isSome = true) :
    Search g givenUp (expr :: rest) seen true seen
  | plain {expr : TypeExpr} {rest : List TypeExpr} {seen last : List String} {found : Bool}
    {p : Primitive} (ht : g.behind expr = .primitive p)
    (hk : p.reinterpretation?.isSome = false) (hs : Search g givenUp rest seen found last) :
    Search g givenUp (expr :: rest) seen found last
  | items {expr element : TypeExpr} {rest : List TypeExpr} {seen last : List String}
    {found : Bool} (ht : g.behind expr = .array element)
    (hs : Search g givenUp (element :: rest) seen found last) :
    Search g givenUp (expr :: rest) seen found last
  | again {expr : TypeExpr} {rest : List TypeExpr} {seen last : List String} {found : Bool}
    {name : String} (ht : g.behind expr = .named name) (hn : name ∈ seen)
    (hs : Search g givenUp rest seen found last) :
    Search g givenUp (expr :: rest) seen found last
  | fields {expr : TypeExpr} {rest : List TypeExpr} {seen last : List String} {found : Bool}
    {name : String} {s : Abi.Struct} (ht : g.behind expr = .named name) (hn : name ∉ seen)
    (hst : g.struct? name = some s)
    (hs : Search g givenUp (s.fields.map (·.type.expr) ++ rest) (name :: seen) found last) :
    Search g givenUp (expr :: rest) seen found last
  | branches {expr : TypeExpr} {rest : List TypeExpr} {seen : List String} {name : String}
    {v : Abi.Variant} (ht : g.behind expr = .named name) (hn : name ∉ seen)
    (hst : g.struct? name = none) (hv : g.variant? name = some v) :
    Search g givenUp (expr :: rest) seen true (name :: seen)
  | other {expr : TypeExpr} {rest : List TypeExpr} {seen last : List String} {found : Bool}
    {name : String} (ht : g.behind expr = .named name) (hn : name ∉ seen)
    (hst : g.struct? name = none) (hv : g.variant? name = none)
    (hs : Search g givenUp rest (name :: seen) found last) :
    Search g givenUp (expr :: rest) seen found last
  | giveUp {expr : TypeExpr} {rest : List TypeExpr} {seen last : List String} {found : Bool}
    (h : givenUp expr) (hs : Search g givenUp rest seen found last) :
    Search g givenUp (expr :: rest) seen found last

/-- A search that gives up at no type ends with an answer. -/
def Finds (g : Graph) (expr : TypeExpr) (found : Bool) : Prop :=
  ∃ last, Search g (fun _ => False) [expr] [] found last

/-- A search may give up at more types. -/
theorem Search.mono {givenUp' : TypeExpr → Prop} {found : Bool}
    (hmono : ∀ expr, givenUp expr → givenUp' expr) (h : Search g givenUp exprs seen found last) :
    Search g givenUp' exprs seen found last := by
  induction h with
  | none => exact .none
  | scalar ht hk => exact .scalar ht hk
  | plain ht hk _ ih => exact .plain ht hk ih
  | items ht _ ih => exact .items ht ih
  | again ht hn _ ih => exact .again ht hn ih
  | fields ht hn hst _ ih => exact .fields ht hn hst ih
  | branches ht hn hst hv => exact .branches ht hn hst hv
  | other ht hn hst hv _ ih => exact .other ht hn hst hv ih
  | giveUp h _ ih => exact .giveUp (hmono _ h) ih

/-! ### The bounded search -/

/-- The answer of a bounded search, and the names that it has come to. -/
def searched (g : Graph) (steps : Nat) (expr : TypeExpr) (seen : List String) :
    Bool × List String :=
  ((search g steps expr).run seen).run

/-- The answer of bounded searches of fields, up to the first that finds a richer value. -/
def searchedFields (g : Graph) (steps : Nat) (fields : List Abi.Field) (seen : List String) :
    Bool × List String :=
  ((fields.anyM fun f => search g steps f.type.expr).run seen).run

theorem searched_primitive {p : Primitive} (ht : g.behind expr = .primitive p) :
    searched g (steps + 1) expr seen = (p.reinterpretation?.isSome, seen) := by
  unfold searched
  rw [search]
  simp only [ht]
  rfl

theorem searched_array {element : TypeExpr} (ht : g.behind expr = .array element) :
    searched g (steps + 1) expr seen = searched g steps element seen := by
  unfold searched
  conv_lhs => rw [search]
  simp only [ht]

theorem searched_named {name : String} (ht : g.behind expr = .named name) :
    searched g (steps + 1) expr seen = if name ∈ seen then (false, seen) else
      match g.struct? name with
      | some s => searchedFields g steps s.fields (name :: seen)
      | none => ((g.variant? name).isSome, name :: seen) := by
  unfold searched searchedFields
  conv_lhs => rw [search]
  simp only [ht]
  by_cases hn : name ∈ seen
  · simp [hn]
  · cases g.struct? name <;> simp [hn]

theorem searchedFields_cons (f : Abi.Field) (fields : List Abi.Field) :
    searchedFields g steps (f :: fields) seen =
      if (searched g steps f.type.expr seen).1 then searched g steps f.type.expr seen
      else searchedFields g steps fields (searched g steps f.type.expr seen).2 := by
  unfold searchedFields searched
  rw [List.anyM_cons, StateT.run_bind, Id.run_bind]
  split
  · next hfound => exact Prod.ext hfound.symm rfl
  · rfl

/-- A result is that of a search, whatever the search goes on with when it has not found anything
yet. -/
structure Answers (g : Graph) (givenUp : TypeExpr → Prop) (exprs : List TypeExpr)
    (seen : List String) (result : Bool × List String) : Prop where
  grows : ∀ name ∈ seen, name ∈ result.2
  found : result.1 = true → ∀ rest, Search g givenUp (exprs ++ rest) seen true result.2
  missed : result.1 = false → ∀ {rest found last}, Search g givenUp rest result.2 found last →
    Search g givenUp (exprs ++ rest) seen found last

theorem Answers.cons {first rest : Bool × List String}
    (hfirst : Answers g givenUp [expr] seen first)
    (hrest : first.1 = false → Answers g givenUp exprs first.2 rest) :
    Answers g givenUp (expr :: exprs) seen (if first.1 then first else rest) := by
  split
  · next hfound =>
    exact ⟨hfirst.grows, fun _ after => hfirst.found hfound (exprs ++ after),
      fun hmissed => absurd (hfound.symm.trans hmissed) nofun⟩
  · next hmissed =>
    rw [Bool.not_eq_true] at hmissed
    have hrest := hrest hmissed
    exact ⟨fun name hn => hrest.grows name (hfirst.grows name hn),
      fun hfound after => hfirst.missed hmissed (hrest.found hfound after),
      fun hfalse _ _ _ hs => hfirst.missed hmissed (hrest.missed hfalse hs)⟩

/-- Where the search of every field answers, so does the search of all of them. -/
theorem answers_searchedFields {fields : List Abi.Field}
    (h : ∀ f ∈ fields, ∀ later, (∀ name ∈ seen, name ∈ later) →
      Answers g givenUp [f.type.expr] later (searched g steps f.type.expr later)) :
    Answers g givenUp (fields.map (·.type.expr)) seen (searchedFields g steps fields seen) := by
  induction fields generalizing seen with
  | nil => exact ⟨fun _ hn => hn, nofun, fun _ _ _ _ hs => hs⟩
  | cons f rest ih =>
    rw [List.forall_mem_cons] at h
    have hfirst := h.1 seen fun _ hn => hn
    rw [searchedFields_cons]
    refine hfirst.cons fun _ => ih fun f hf later hlater => ?_
    exact h.2 f hf later fun name hn => hlater name (hfirst.grows name hn)

/-- Steps suffice for a type: one for every type on the way down to a name, and a span of them for
every name that the search has not come to. -/
def Suffices (g : Graph) (span steps : Nat) (expr : TypeExpr) (seen : List String) : Prop :=
  ∀ n, g.Descends expr n → n + unvisited (g.index.map Prod.fst) seen * span < steps

section Suffices

variable {span : Nat} (hg : ResolvedTypes doc g) (h : Suffices g span (steps + 1) expr seen)
include hg h

/-- One step fewer suffices for the items of a list. -/
theorem Suffices.element {element : TypeExpr} (ht : g.behind expr = .array element) :
    Suffices g span steps element seen := by
  intro n hn
  have hstands := hg.standsFor_behind expr
  rw [ht] at hstands
  obtain ⟨m, hm, hd⟩ :=
    Abi.Graph.exists_descends_of_reach hstands.reach (.step (.element element) hn)
  have hbound := h m hd
  omega

/-- What suffices for a new name suffices for what has no more than a span of types on its way
down, once the search has come to the name. -/
theorem Suffices.field {name : String} {s : Abi.Struct} {below : TypeExpr} {later : List String}
    (ht : g.behind expr = .named name) (hn : name ∉ seen) (hst : g.struct? name = some s)
    (hlater : ∀ other ∈ name :: seen, other ∈ later)
    (hspan : ∀ n, g.Descends below n → n < span) : Suffices g span steps below later := by
  intro n hbelow
  obtain ⟨position, hdecl, -⟩ := Abi.Graph.struct?_eq_some_iff_place.1 hst
  have hin : name ∈ g.index.map Prod.fst := List.mem_map_of_mem (hg.mem_index_iff.2 hdecl)
  obtain ⟨hname, hseen⟩ := List.forall_mem_cons.1 hlater
  have hfewer := Nat.mul_le_mul_right span
    (Nat.succ_le_of_lt (Abi.unvisited_lt hseen hin hn hname))
  rw [Nat.succ_mul] at hfewer
  have hstands := hg.standsFor_behind expr
  rw [ht] at hstands
  obtain ⟨m, -, hd⟩ := Abi.Graph.exists_descends_of_reach hstands.reach
    (Abi.Graph.descends_named hstands.alias?_eq_none)
  have hbound := h m hd
  have hlength := hspan n hbelow
  omega

end Suffices

/-- Where its steps suffice, a bounded search answers: it gives up only where the way down has no
end. -/
theorem answers_searched (hg : ResolvedTypes doc g) {span : Nat}
    (hspan : ∀ s ∈ g.structs, ∀ f ∈ s.fields, ∀ n, g.Descends f.type.expr n → n < span)
    (hsteps : Suffices g span steps expr seen) :
    Answers g g.Endless [expr] seen (searched g steps expr seen) := by
  induction steps generalizing expr seen with
  | zero =>
    have hendless : g.Endless expr := fun n hn => Nat.not_lt_zero _ (hsteps n hn)
    exact ⟨fun _ hn => hn, nofun, fun _ _ _ _ hs => .giveUp hendless hs⟩
  | succ steps ih =>
    cases ht : g.behind expr with
    | primitive p =>
      rw [searched_primitive ht]
      exact ⟨fun _ hn => hn, fun hk _ => .scalar ht hk, fun hk _ _ _ hs => .plain ht hk hs⟩
    | array element =>
      have helement := ih (hsteps.element hg ht)
      rw [searched_array ht]
      exact ⟨helement.grows, fun hfound rest => .items ht (helement.found hfound rest),
        fun hmissed _ _ _ hs => .items ht (helement.missed hmissed hs)⟩
    | named name =>
      rw [searched_named ht]
      split
      · next hn => exact ⟨fun _ hn => hn, nofun, fun _ _ _ _ hs => .again ht hn hs⟩
      · next hn =>
        have hgrows : ∀ other ∈ seen, other ∈ name :: seen := fun _ => List.mem_cons_of_mem _
        cases hst : g.struct? name with
        | none =>
          cases hv : g.variant? name with
          | none => exact ⟨hgrows, nofun, fun _ _ _ _ hs => .other ht hn hst hv hs⟩
          | some v => exact ⟨hgrows, fun _ _ => .branches ht hn hst hv, nofun⟩
        | some s =>
          have hs := (hg.struct?_eq_some_iff.1 hst).1
          have hfields : Answers g g.Endless (s.fields.map (·.type.expr)) (name :: seen)
              (searchedFields g steps s.fields (name :: seen)) :=
            answers_searchedFields fun f hf later hlater =>
              ih (hsteps.field hg ht hn hst hlater (hspan s hs f hf))
          exact ⟨fun other ho => hfields.grows other (hgrows other ho),
            fun hfound rest => .fields ht hn hst (hfields.found hfound rest),
            fun hmissed _ _ _ hs => .fields ht hn hst (hfields.missed hmissed hs)⟩

private theorem depth_target_le {a : Abi.Alias} (ha : a ∈ g.aliases) :
    a.target.depth ≤ arrayLevels g :=
  List.le_sum_of_mem (List.mem_append_left _ (List.mem_map_of_mem ha))

private theorem depth_field_le {s : Abi.Struct} (hs : s ∈ g.structs) {f : Abi.Field}
    (hf : f ∈ s.fields) : f.type.expr.depth ≤ arrayLevels g :=
  List.le_sum_of_mem (List.mem_append_right _ (List.mem_flatMap.2 ⟨s, hs, List.mem_map_of_mem hf⟩))

/-- What a coercer says of a type is the answer of a search. -/
theorem exists_search (hg : ResolvedTypes doc g) (expr : TypeExpr) :
    ∃ last, Search g g.Endless [expr] [] ((Coercer.ofGraph g).isRich expr) last := by
  have hlevels : ∀ a ∈ g.aliases, a.target.depth ≤ arrayLevels g := fun _ => depth_target_le
  have hspan : ∀ s ∈ g.structs, ∀ f ∈ s.fields, ∀ n, g.Descends f.type.expr n →
      n < (g.aliases.length + 1) * (arrayLevels g + 1) := by
    intro s hs f hf n hn
    have hdepth := depth_field_le hs hf
    have hle := hg.descends_le hlevels hn
    rw [Nat.succ_mul]
    omega
  have hanswers : Answers g g.Endless [expr] [] (searched g (searchDepth g expr) expr []) := by
    apply answers_searched hg hspan
    intro n hn
    have hle := hg.descends_le hlevels hn
    have hnames := Nat.mul_le_mul_right ((g.aliases.length + 1) * (arrayLevels g + 1))
      (Abi.unvisited_le_length (g.index.map Prod.fst) [])
    rw [List.length_map] at hnames
    rw [searchDepth, Nat.succ_mul]
    rw [Nat.succ_mul] at hnames ⊢
    omega
  have hrich : (Coercer.ofGraph g).isRich expr = (searched g (searchDepth g expr) expr []).1 := rfl
  rw [hrich]
  cases hresult : (searched g (searchDepth g expr) expr []).1 with
  | true => exact ⟨_, hanswers.found hresult []⟩
  | false => exact ⟨_, hanswers.missed hresult .none⟩

end ContractBinding.Table
