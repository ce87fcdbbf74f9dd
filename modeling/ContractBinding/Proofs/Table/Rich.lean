import ContractBinding.Proofs.Table.Search

/-!
# Types that hold richer values

The types at which a search finds a richer value are those from which aliases, arrays and fields
lead to a reinterpreted built-in type or to a variant. A search that finds nothing has come to
every name that it was led to, so no name that it had come to before hides anything from it.
-/

namespace ContractBinding.Table

open Abi (Graph ResolvedTypes)
open Relation

/-- A type leads to a reinterpreted built-in type or to a variant. -/
inductive Rich (g : Graph) : TypeExpr → Prop where
  | scalar {p : Primitive} {kind : Reinterpretation} (h : p.reinterpretation? = some kind) :
    Rich g (.primitive p)
  | items {element : TypeExpr} (h : Rich g element) : Rich g (.array element)
  | link {name : String} {a : Abi.Alias} (ha : g.alias? name = some a) (h : Rich g a.target) :
    Rich g (.named name)
  | field {name : String} {s : Abi.Struct} {f : Abi.Field} (hs : g.struct? name = some s)
    (hf : f ∈ s.fields) (h : Rich g f.type.expr) : Rich g (.named name)
  | branches {name : String} {v : Abi.Variant} (hv : g.variant? name = some v) :
    Rich g (.named name)

variable {doc : Abi.Document} {g : Graph} {names seen last : List String} {expr t : TypeExpr}
  {exprs : List TypeExpr} {found : Bool}

/-- A type leads to a richer value exactly when what it stands for does. -/
theorem rich_iff_of_standsFor (ht : g.StandsFor expr t) : Rich g expr ↔ Rich g t := by
  induction ht with
  | self _ => exact Iff.rfl
  | link ha _ ih =>
    rw [← ih]
    constructor
    · intro h
      cases h with
      | link ha' h =>
        cases ha.symm.trans ha'
        exact h
      | field hs _ _ => simp [(Graph.others_of_struct? hs).1] at ha
      | branches hv => simp [(Graph.others_of_variant? hv).1] at ha
    · exact fun h => .link ha h

/-- What a search finds is there. -/
theorem rich_of_search (hg : ResolvedTypes doc g) {givenUp : TypeExpr → Prop}
    (h : Search g givenUp exprs seen found last) (hfound : found = true) :
    ∃ expr ∈ exprs, Rich g expr := by
  have hbehind {expr t : TypeExpr} (ht : g.behind expr = t) (hr : Rich g t) : Rich g expr :=
    (rich_iff_of_standsFor (ht ▸ hg.standsFor_behind expr)).2 hr
  induction h with
  | none => cases hfound
  | scalar ht hk =>
    obtain ⟨kind, hkind⟩ := Option.isSome_iff_exists.1 hk
    exact ⟨_, List.mem_cons_self .., hbehind ht (.scalar hkind)⟩
  | plain _ _ _ ih | again _ _ _ ih | other _ _ _ _ _ ih | giveUp _ _ ih =>
    obtain ⟨e, he, hr⟩ := ih hfound
    exact ⟨e, List.mem_cons_of_mem _ he, hr⟩
  | items ht _ ih =>
    obtain ⟨e, he, hr⟩ := ih hfound
    rcases List.mem_cons.1 he with rfl | he
    · exact ⟨_, List.mem_cons_self .., hbehind ht (.items hr)⟩
    · exact ⟨e, List.mem_cons_of_mem _ he, hr⟩
  | fields ht _ hst _ ih =>
    obtain ⟨e, he, hr⟩ := ih hfound
    rcases List.mem_append.1 he with he | he
    · obtain ⟨f, hf, rfl⟩ := List.mem_map.1 he
      exact ⟨_, List.mem_cons_self .., hbehind ht (.field hst hf hr)⟩
    · exact ⟨e, List.mem_cons_of_mem _ he, hr⟩
  | branches ht _ _ hv => exact ⟨_, List.mem_cons_self .., hbehind ht (.branches hv)⟩

/-- A reinterpreted built-in type, or a name outside of some names. -/
inductive Outside (g : Graph) (names : List String) : TypeExpr → Prop where
  | scalar {p : Primitive} (hk : p.reinterpretation?.isSome = true) :
    Outside g names (.primitive p)
  | name {name : String} (ha : g.alias? name = none) (hn : name ∉ names) :
    Outside g names (.named name)

/-- The way down a type comes to a reinterpreted built-in type or to a name outside of some
names. -/
def LeadsOut (g : Graph) (names : List String) (expr : TypeExpr) : Prop :=
  ∃ t, ReflTransGen g.Link expr t ∧ Outside g names t

/-- With what is outside, the way down ends. -/
theorem Outside.descends (h : Outside g names t) : g.Descends t 0 := by
  cases h with
  | scalar _ => exact Graph.descends_primitive _
  | name ha _ => exact Graph.descends_named ha

/-- A way down that leads out does so from everything on it. -/
theorem LeadsOut.of_reach (h : LeadsOut g names expr) (ht : ReflTransGen g.Link expr t) :
    LeadsOut g names t := by
  obtain ⟨last, hlast, hout⟩ := h
  exact ⟨last, Graph.reach_end ht hlast hout.descends, hout⟩

/-- A way down that leads out has its end outside. -/
theorem LeadsOut.outside (h : LeadsOut g names expr) (ht : ReflTransGen g.Link expr t)
    (hend : g.Descends t 0) : Outside g names t := by
  obtain ⟨last, hlast, hout⟩ := h
  rwa [Graph.end_unique ht hlast hend hout.descends]

/-- A way down without an end does not lead out. -/
theorem not_leadsOut_of_endless (h : g.Endless expr) : ¬ LeadsOut g names expr := by
  rintro ⟨last, hlast, hout⟩
  obtain ⟨n, -, hd⟩ := Graph.exists_descends_of_reach hlast hout.descends
  exact h n hd

/-- A name is no variant, and none of its fields leads out of some names. -/
structure Settled (g : Graph) (names : List String) (name : String) : Prop where
  variant : g.variant? name = none
  fields : ∀ s, g.struct? name = some s → ∀ f ∈ s.fields, ¬ LeadsOut g names f.type.expr

/-- Where a name is settled, the names are settled that are new to a search of it. -/
theorem Settled.cons {name : String} (hname : Settled g last name)
    (hsettled : ∀ other ∈ last, other ∉ name :: seen → Settled g last other) :
    ∀ other ∈ last, other ∉ seen → Settled g last other := by
  intro other ho hnot
  by_cases heq : other = name
  · rw [heq]
    exact hname
  · exact hsettled other ho (List.not_mem_cons_of_ne_of_not_mem heq hnot)

/-- A search that finds nothing is not led out of the names that it has come to in the end, and
every one of them is settled that it had not come to before. -/
theorem settled_of_search (hg : ResolvedTypes doc g)
    (h : Search g g.Endless exprs seen found last) (hmissed : found = false) :
    (∀ name ∈ seen, name ∈ last) ∧ (∀ expr ∈ exprs, ¬ LeadsOut g last expr) ∧
      ∀ name ∈ last, name ∉ seen → Settled g last name := by
  have hbehind {expr t : TypeExpr} (ht : g.behind expr = t) : ReflTransGen g.Link expr t :=
    ht ▸ (hg.standsFor_behind expr).reach
  have hnamed {expr : TypeExpr} {name : String} {last : List String}
      (ht : g.behind expr = .named name) (hn : name ∈ last) : ¬ LeadsOut g last expr := by
    intro hout
    have halias : g.alias? name = none := (ht ▸ hg.standsFor_behind expr).alias?_eq_none
    cases hout.outside (hbehind ht) (Graph.descends_named halias) with
    | name _ hnot => exact hnot hn
  induction h with
  | none => exact ⟨fun _ hn => hn, nofun, fun _ hn hnot => absurd hn hnot⟩
  | scalar _ _ | branches _ _ _ _ => cases hmissed
  | plain ht hk _ ih =>
    obtain ⟨hgrows, hexprs, hsettled⟩ := ih hmissed
    refine ⟨hgrows, List.forall_mem_cons.2 ⟨fun hout => ?_, hexprs⟩, hsettled⟩
    cases hout.outside (hbehind ht) (Graph.descends_primitive _) with
    | scalar hrich => simp [hk] at hrich
  | items ht _ ih =>
    obtain ⟨hgrows, hexprs, hsettled⟩ := ih hmissed
    rw [List.forall_mem_cons] at hexprs
    refine ⟨hgrows, List.forall_mem_cons.2 ⟨fun hout => hexprs.1 ?_, hexprs.2⟩, hsettled⟩
    exact hout.of_reach ((hbehind ht).tail (.element _))
  | again ht hn _ ih =>
    obtain ⟨hgrows, hexprs, hsettled⟩ := ih hmissed
    exact ⟨hgrows, List.forall_mem_cons.2 ⟨hnamed ht (hgrows _ hn), hexprs⟩, hsettled⟩
  | @fields _ _ _ last _ name s ht hn hst _ ih =>
    obtain ⟨hgrows, hexprs, hsettled⟩ := ih hmissed
    rw [List.forall_mem_append, List.forall_mem_map] at hexprs
    rw [List.forall_mem_cons] at hgrows
    have hname : Settled g last name := by
      refine ⟨(Graph.others_of_struct? hst).2, fun s' hs' => ?_⟩
      cases hst.symm.trans hs'
      exact hexprs.1
    exact ⟨hgrows.2, List.forall_mem_cons.2 ⟨hnamed ht hgrows.1, hexprs.2⟩, hname.cons hsettled⟩
  | @other _ _ _ last _ name ht hn hst hv _ ih =>
    obtain ⟨hgrows, hexprs, hsettled⟩ := ih hmissed
    rw [List.forall_mem_cons] at hgrows
    have hname : Settled g last name := ⟨hv, fun s' hs' => absurd (hst.symm.trans hs') nofun⟩
    exact ⟨hgrows.2, List.forall_mem_cons.2 ⟨hnamed ht hgrows.1, hexprs⟩, hname.cons hsettled⟩
  | giveUp hendless _ ih =>
    obtain ⟨hgrows, hexprs, hsettled⟩ := ih hmissed
    exact ⟨hgrows, List.forall_mem_cons.2 ⟨not_leadsOut_of_endless hendless, hexprs⟩, hsettled⟩

/-- Where all of some names are settled, a type that leads to a richer value leads out of them. -/
theorem leadsOut_of_rich (hsettled : ∀ name ∈ names, Settled g names name) (h : Rich g expr) :
    LeadsOut g names expr := by
  induction h with
  | scalar hk => exact ⟨_, .refl, .scalar (hk ▸ rfl)⟩
  | items _ ih =>
    obtain ⟨t, ht, hout⟩ := ih
    exact ⟨t, .head (.element _) ht, hout⟩
  | link ha _ ih =>
    obtain ⟨t, ht, hout⟩ := ih
    exact ⟨t, .head (.target ha) ht, hout⟩
  | field hs hf _ ih =>
    refine ⟨_, .refl, .name ((Graph.others_of_struct? hs).1) fun hn => ?_⟩
    exact (hsettled _ hn).fields _ hs _ hf ih
  | branches hv =>
    refine ⟨_, .refl, .name ((Graph.others_of_variant? hv).1) fun hn => ?_⟩
    simp [(hsettled _ hn).variant] at hv

/-- A search from no names finds a richer value exactly where a type leads to one. -/
theorem search_eq_true_iff (hg : ResolvedTypes doc g)
    (h : Search g g.Endless [expr] [] found last) : found = true ↔ Rich g expr := by
  constructor
  · intro hfound
    obtain ⟨e, he, hr⟩ := rich_of_search hg h hfound
    rwa [List.mem_singleton.1 he] at hr
  · intro hr
    by_contra hmissed
    obtain ⟨-, hexprs, hsettled⟩ := settled_of_search hg h (Bool.eq_false_of_not_eq_true hmissed)
    have hout := leadsOut_of_rich (fun name hn => hsettled name hn List.not_mem_nil) hr
    exact hexprs expr (List.mem_singleton_self _) hout

/-- A coercer knows which types lead to richer values. -/
theorem isRich_iff (hg : ResolvedTypes doc g) :
    (Coercer.ofGraph g).isRich expr = true ↔ Rich g expr := by
  obtain ⟨last, h⟩ := exists_search hg expr
  exact search_eq_true_iff hg h

/-- Where no alias leads back to itself by way of aliases and arrays, a search ends by itself with
one answer, which is that of a coercer: whether the type leads to a richer value. -/
theorem finds_iff_rich (h : Abi.resolve doc = .ok g)
    (ha : ∀ a ∈ g.aliases, ¬ TransGen g.Link (.named a.name) (.named a.name))
    (expr : TypeExpr) :
    (∀ found, Finds g expr found ↔ found = (Coercer.ofGraph g).isRich expr) ∧
      ((Coercer.ofGraph g).isRich expr = true ↔ Rich g expr) := by
  have hg := (Abi.resolve_eq_ok_iff.1 h).toResolvedTypes
  refine ⟨fun found => ⟨?_, ?_⟩, isRich_iff hg⟩
  · rintro ⟨last, hs⟩
    rw [Bool.eq_iff_iff, isRich_iff hg]
    exact search_eq_true_iff hg (hs.mono fun _ => False.elim)
  · rintro rfl
    obtain ⟨last, hs⟩ := exists_search hg expr
    refine ⟨last, hs.mono fun e hendless => ?_⟩
    obtain ⟨n, hd⟩ := hg.exists_descends ha e
    exact hendless n hd

/-- Parents know their children and children their parents; only a child has a moment. -/
def kin : Abi.Document where
  version := none
  aliases := [⟨"children", "child[]"⟩]
  structs := [⟨"parent", "", [⟨"children", "children"⟩]⟩,
    ⟨"child", "", [⟨"parents", "parent[]"⟩, ⟨"born", "time_point_sec"⟩]⟩]
  actions := []
  tables := []
  variants := []

/-- The graph of kin. -/
def kinGraph : Graph :=
  let children : Abi.Field := ⟨"children", ⟨.named "children", false, false⟩, "parent"⟩
  let parents : Abi.Field := ⟨"parents", ⟨.array (.named "parent"), false, false⟩, "child"⟩
  let born : Abi.Field := ⟨"born", ⟨.primitive .timePointSec, false, false⟩, "child"⟩
  { version := none
    aliases := [⟨"children", .array (.named "child")⟩]
    structs := [⟨"parent", none, [children], [children]⟩,
      ⟨"child", none, [parents, born], [parents, born]⟩]
    actions := []
    tables := []
    variants := []
    index := [("children", .alias 0), ("parent", .struct 0), ("child", .struct 1)] }

/-- The search of a parent comes back to parents before it finds the moment. -/
theorem finds_kin : Abi.resolve kin = .ok kinGraph ∧
    (∀ a ∈ kinGraph.aliases, ¬ TransGen kinGraph.Link (.named a.name) (.named a.name)) ∧
    Finds kinGraph (.named "parent") true ∧ Rich kinGraph (.named "parent") := by
  have hresolve : Abi.resolve kin = .ok kinGraph := Outcome.eq_ok_of_toOption (by decide +kernel)
  have halias : kinGraph.alias? "children" = some ⟨"children", .array (.named "child")⟩ := rfl
  have hdescends : kinGraph.Descends (.named "children") 2 :=
    .step (.target halias) (.step (.element _) (Graph.descends_named rfl))
  have ha : ∀ a ∈ kinGraph.aliases,
      ¬ TransGen kinGraph.Link (.named a.name) (.named a.name) := by
    intro a hm
    rw [List.mem_singleton.1 hm]
    exact hdescends.not_cycle
  have hrich : (Coercer.ofGraph kinGraph).isRich (.named "parent") = true := rfl
  obtain ⟨hfinds, hexact⟩ := finds_iff_rich hresolve ha (.named "parent")
  exact ⟨hresolve, ha, (hfinds true).2 hrich.symm, hexact.1 hrich⟩

end ContractBinding.Table
