import ContractBinding.Proofs.Binding.TypeNames

/-!
# References of a graph

Before any text is made the references of a graph are checked, and a dangling one is reported with
the declaration that holds it. The fields of a struct are checked together with those that it
inherits, while its row shows its own fields: in a graph that was edited these need not be the
same, so the code of a graph may refer to an own field's type that nobody declares.
-/

namespace ContractBinding.Binding

open Abi (Action Alias Branch Field Graph Problem Site Struct Variant)
open Outcome (RefusedBy)

variable {g : Graph} {contract : String} {header : Header}

/-- Every reference that is checked leads to a declaration. -/
structure Linked (g : Graph) : Prop where
  bases : ∀ s ∈ g.structs, ∀ base, s.base = some base → ∃ parent, g.struct? base = some parent
  fields : ∀ s ∈ g.structs, ∀ f ∈ s.fields, g.Closed f.type.expr
  targets : ∀ a ∈ g.aliases, g.Closed a.target
  branches : ∀ v ∈ g.variants, ∀ b ∈ v.branches, g.Closed b.type
  arguments : ∀ a ∈ g.actions, ∀ f ∈ a.fields, g.Closed f.type.expr
  rows : ∀ t ∈ g.tables, ∃ s, g.struct? t.rowStruct = some s

/-- A problem names a declaration of the graph and a reference in it that leads nowhere. -/
inductive Dangling (g : Graph) : Problem → Prop where
  | base {s : Struct} {base : String} (hs : s ∈ g.structs) (hb : s.base = some base)
    (hno : g.struct? base = none) : Dangling g (.danglingBase s.name base)
  | field {s : Struct} {f : Field} {name : String} (hs : s ∈ g.structs) (hf : f ∈ s.fields)
    (hn : f.type.expr.namedRef? = some name) (hno : g.declares name = false) :
    Dangling g (.danglingType (.structField s.name f.name) name)
  | target {a : Alias} {name : String} (ha : a ∈ g.aliases) (hn : a.target.namedRef? = some name)
    (hno : g.declares name = false) : Dangling g (.danglingType (.entry .alias a.name) name)
  | branch {v : Variant} {b : Branch} {name : String} (hv : v ∈ g.variants) (hb : b ∈ v.branches)
    (hn : b.type.namedRef? = some name) (hno : g.declares name = false) :
    Dangling g (.danglingType (.entry .variant v.name) name)
  | argument {a : Action} {f : Field} {name : String} (ha : a ∈ g.actions) (hf : f ∈ a.fields)
    (hn : f.type.expr.namedRef? = some name) (hno : g.declares name = false) :
    Dangling g (.danglingType (.actionField a.name f.name) name)
  | row {t : Abi.Table} (ht : t ∈ g.tables) (hno : g.struct? t.rowStruct = none) :
    Dangling g (.danglingRow t.name t.rowStruct)

/-- A type passes exactly where the name below its arrays is declared. -/
theorem checkType_eq_ok_iff {site : Site} {expr : TypeExpr} :
    checkType g site expr = .ok () ↔ g.Closed expr := by
  unfold checkType Graph.Closed
  cases expr.namedRef? with
  | none => simp
  | some name =>
    by_cases hd : g.declares name = true
    · simp [hd]
    · simp [hd]

/-- A type that does not pass is reported at its place with the name that nobody declares. -/
theorem refusedBy_checkType {site : Site} {expr : TypeExpr} {P : Problem → Prop}
    (h : ∀ name, expr.namedRef? = some name → g.declares name = false →
      P (.danglingType site name)) : RefusedBy P (checkType g site expr) := by
  unfold checkType
  cases hn : expr.namedRef? with
  | none => exact .ok ()
  | some name =>
    dsimp only
    by_cases hd : g.declares name = true
    · rw [if_pos hd]
      exact .ok ()
    · rw [if_neg hd]
      exact .error (h name hn (Bool.eq_false_iff.2 hd))

/-- The check of a struct before its fields: its base is a struct. -/
def checkBase (g : Graph) (s : Struct) : Except Problem Unit :=
  match s.base with
  | some base => if (g.struct? base).isNone then .error (.danglingBase s.name base) else .ok ()
  | none => .ok ()

/-- A struct is checked from its base to its last field. -/
theorem checkStruct_eq (g : Graph) (s : Struct) : checkStruct g s =
    checkBase g s >>= fun _ =>
      s.fields.forM fun f => checkType g (.structField s.name f.name) f.type.expr := by
  unfold checkStruct checkBase
  cases s.base with
  | none => rfl
  | some base =>
    dsimp only
    by_cases hno : (g.struct? base).isNone = true
    · rw [if_pos hno, if_pos hno]
      rfl
    · rw [if_neg hno, if_neg hno]
      rfl

/-- A base passes exactly where it is a struct. -/
theorem checkBase_eq_ok_iff {s : Struct} : checkBase g s = .ok () ↔
    ∀ base, s.base = some base → ∃ parent, g.struct? base = some parent := by
  unfold checkBase
  cases s.base with
  | none => simp
  | some base =>
    cases hparent : g.struct? base with
    | none => simp [hparent]
    | some parent => simp [hparent]

/-- A base that does not pass is reported with its struct. -/
theorem refusedBy_checkBase {s : Struct} (hs : s ∈ g.structs) :
    RefusedBy (Dangling g) (checkBase g s) := by
  unfold checkBase
  cases hb : s.base with
  | none => exact .ok ()
  | some base =>
    dsimp only
    cases hparent : g.struct? base with
    | none => exact .error (.base hs hb hparent)
    | some parent => exact .ok ()

/-- A row type passes exactly where it is a struct. -/
theorem checkRow_eq_ok_iff {t : Abi.Table} :
    (if (g.struct? t.rowStruct).isNone then .error (.danglingRow t.name t.rowStruct)
      else .ok () : Except Problem Unit) = .ok () ↔ ∃ s, g.struct? t.rowStruct = some s := by
  cases g.struct? t.rowStruct with
  | none => simp
  | some s => simp

/-- The references of a graph pass exactly where all of them lead to declarations. -/
theorem checkReferences_eq_ok_iff : checkReferences g = .ok () ↔ Linked g := by
  unfold checkReferences
  simp only [Outcome.check_bind_eq_ok_iff, Outcome.forM_eq_ok_iff, checkStruct_eq,
    checkBase_eq_ok_iff, checkType_eq_ok_iff, checkRow_eq_ok_iff]
  constructor
  · rintro ⟨hstructs, htargets, hbranches, harguments, hrows⟩
    exact ⟨fun s hs => (hstructs s hs).1, fun s hs => (hstructs s hs).2, htargets, hbranches,
      harguments, hrows⟩
  · intro h
    exact ⟨fun s hs => ⟨h.bases s hs, h.fields s hs⟩, h.targets, h.branches, h.arguments, h.rows⟩

/-- A reference that does not pass is one that leads nowhere. -/
theorem refusedBy_checkReferences (g : Graph) : RefusedBy (Dangling g) (checkReferences g) := by
  unfold checkReferences
  refine .bind (.forM fun s hs => ?_) fun _ => .bind (.forM fun a ha => ?_) fun _ =>
    .bind (.forM fun v hv => .forM fun b hb => ?_) fun _ =>
    .bind (.forM fun a ha => .forM fun f hf => ?_) fun _ => .forM fun t ht => ?_
  · rw [checkStruct_eq]
    exact (refusedBy_checkBase hs).bind fun _ => .forM fun f hf =>
      refusedBy_checkType fun _ => .field hs hf
  · exact refusedBy_checkType fun _ => .target ha
  · exact refusedBy_checkType fun _ => .branch hv hb
  · exact refusedBy_checkType fun _ => .argument ha hf
  · cases hrow : g.struct? t.rowStruct with
    | none => exact .error (.row ht hrow)
    | some s => exact .ok ()

/-- A graph is refused for its contract name or for a reference that leads nowhere. -/
theorem refusedBy_emit (g : Graph) (contract : String) (header : Header) :
    RefusedBy (fun problem => problem = .contractName contract ∨ Dangling g problem)
      (emit g contract header) := by
  have hcheck : RefusedBy (fun problem => problem = .contractName contract ∨ Dangling g problem)
      (checkReferences g) := fun problem h => .inr (refusedBy_checkReferences g problem h)
  refine .bind ?_ fun _ => .ok _
  unfold interface
  by_cases hc : Name.isIdentifier contract = true
  · rw [hc]
    exact hcheck.bind fun _ => .ok _
  · rw [Bool.eq_false_iff.2 hc]
    exact .error (.inl rfl)

/-- What is declared below the arrays of a type is declared in all of it: the members of a struct
that is written in place are among the fields that are checked. -/
theorem Linked.declares_of_mem_namesOf (hl : Linked g) {expr : TypeExpr} (hc : g.Closed expr)
    {name : String} (hn : name ∈ (Mapping.ofGraph g contract).namesOf expr) :
    g.declares name = true := by
  unfold Mapping.namesOf at hn
  cases href : expr.namedRef? with
  | none => simp [href] at hn
  | some outer =>
    simp only [href] at hn
    cases hlookup : (Mapping.ofGraph g contract).pairs.lookup outer with
    | none =>
      simp only [hlookup, List.mem_singleton] at hn
      rw [hn]
      exact hc outer href
    | some members =>
      obtain ⟨key, value⟩ := members
      obtain ⟨s, hs, -, -, k, v, hfields, rfl, rfl⟩ :=
        Mapping.mem_pairs_iff.1 (Mapping.mem_pairs_of_lookup hlookup)
      simp only [hlookup, List.mem_append, Option.mem_toList] at hn
      rcases hn with hkey | hvalue
      · exact hl.fields s hs k (by simp [hfields]) name hkey
      · exact hl.fields s hs v (by simp [hfields]) name hvalue

/-- The struct of a name is declared. -/
theorem declares_of_struct? {name : String} {s : Struct} (h : g.struct? name = some s) :
    g.declares name = true := by
  obtain ⟨position, hdecl, -⟩ := Graph.struct?_eq_some_iff_place.1 h
  rw [Graph.declares, hdecl]
  rfl

/-- What the code of a graph refers to is declared, own fields apart. -/
theorem Rendered.declares {name : String} (hl : Linked g)
    (hown : ∀ s ∈ g.structs, ∀ f ∈ s.ownFields,
      ∀ name ∈ (Mapping.ofGraph g contract).namesOf f.type.expr, g.declares name = true)
    (h : Rendered g (Mapping.ofGraph g contract) name) : g.declares name = true := by
  cases h with
  | base hs hb =>
    obtain ⟨parent, hparent⟩ := hl.bases _ hs _ hb
    exact declares_of_struct? hparent
  | ownField hs hf hn => exact hown _ hs _ hf _ hn
  | target ha hn => exact hl.declares_of_mem_namesOf (hl.targets _ ha) hn
  | branch hv hb hn => exact hl.declares_of_mem_namesOf (hl.branches _ hv _ hb) hn
  | argument ha hf hn => exact hl.declares_of_mem_namesOf (hl.arguments _ ha _ hf) hn
  | row ht =>
    obtain ⟨s, hs⟩ := hl.rows _ ht
    exact declares_of_struct? hs

/-- The code of a graph refers to declared names only, or the graph is refused for a dangling
reference of one of its declarations. -/
structure FailsClosed (g : Graph) (contract : String) (header : Header) : Prop where
  declared : ∀ text, emit g contract header = .ok text →
    ∀ name, Rendered g (Mapping.ofGraph g contract) name → g.declares name = true
  /-- What the code refers to can be seen in its text. -/
  shown : ∀ text, emit g contract header = .ok text → ShownIn g contract header.text text
  refused : ∀ problem, emit g contract header = .error problem →
    problem = .contractName contract ∨ Dangling g problem

/-- Emission fails closed exactly where the types of own fields are declared by themselves. -/
theorem failsClosed_iff : FailsClosed g contract header ↔
    ∀ text, emit g contract header = .ok text → ∀ s ∈ g.structs, ∀ f ∈ s.ownFields,
      ∀ name ∈ (Mapping.ofGraph g contract).namesOf f.type.expr, g.declares name = true := by
  constructor
  · intro h text he s hs f hf name hn
    exact h.declared text he name (.ownField hs hf hn)
  · intro hown
    refine ⟨fun text he name hr => ?_, fun _ => shownIn_of_emit, refusedBy_emit g contract header⟩
    obtain ⟨i, hi, -⟩ := emit_eq_ok_iff.1 he
    have hlinked := checkReferences_eq_ok_iff.1 (interface_eq_ok_iff.1 hi).2.1
    exact hr.declares hlinked (hown text he)

/-- The graph of the membership contract, edited so that the moment of joining in a member's own
fields has a type that nobody declares. -/
def strayedGraph : Graph :=
  let stray (f : Field) : Field := { f with type := { f.type with expr := .named "ghost" } }
  let member (s : Struct) : Struct := { s with ownFields := s.ownFields.modify 0 stray }
  { Abi.membershipGraph with structs := Abi.membershipGraph.structs.modify 0 member }

/-- The edited field. -/
def strayedField : Field := ⟨"joined", ⟨.named "ghost", false, true⟩, "member"⟩

/-- The struct of the edited field, which inherits one field and has the rest for its own. -/
def strayedMember : Struct :=
  let prize : Field := ⟨"prize", ⟨.named "reward", true, false⟩, "member"⟩
  ⟨"member", some "entry", [strayedField, prize],
    [⟨"on", ⟨.named "flags", false, false⟩, "entry"⟩,
      ⟨"joined", ⟨.primitive .timePointSec, false, true⟩, "member"⟩, prize]⟩

/-- The code of that graph shows the type all the same, as that of a member's key. -/
theorem strayedGraph_not_failsClosed :
    Abi.resolve Abi.membership = .ok Abi.membershipGraph ∧
      (∃ text, emit strayedGraph "Dao" ⟨defaultRuntimeModule, none⟩ = .ok text ∧
        Text.HasLine text "\tjoined?: DaoGhost | null;\n") ∧
      Rendered strayedGraph (Mapping.ofGraph strayedGraph "Dao") "ghost" ∧
      "DaoGhost" ∈ (Interface.ofGraph strayedGraph "Dao").mentions ∧
      "DaoGhost" ∈ (Listing.ofGraph strayedGraph "Dao").typeNames ∧
      strayedGraph.declares "ghost" = false ∧
      ¬ FailsClosed strayedGraph "Dao" ⟨defaultRuntimeModule, none⟩ := by
  obtain ⟨text, he⟩ : ∃ text, emit strayedGraph "Dao" ⟨defaultRuntimeModule, none⟩ = .ok text :=
    ⟨_, emit_eq_ok_iff.2 ⟨_, interface_eq_ok_iff.2 ⟨by decide, by rfl, rfl⟩, rfl⟩⟩
  have hmember : strayedMember ∈ strayedGraph.structs := by decide
  have hjoined : strayedField ∈ strayedMember.ownFields := List.mem_cons_self ..
  have hghost : Rendered strayedGraph (Mapping.ofGraph strayedGraph "Dao") "ghost" :=
    .ownField hmember hjoined (by decide)
  have hno : strayedGraph.declares "ghost" = false := by decide
  have hshown := shownIn_of_emit he
  have hline := hshown.written.keys _ (List.mem_map_of_mem hmember) _ (List.mem_map_of_mem hjoined)
  have hkey : (Listing.Entry.ofField (Mapping.ofGraph strayedGraph "Dao") strayedField).line =
      "\tjoined?: DaoGhost | null;\n" := by
    decide
  rw [hkey] at hline
  refine ⟨Abi.resolve_membership, ⟨text, he, hline⟩, hghost, by decide,
    hshown.shown "ghost" hghost, hno, fun h => ?_⟩
  have hyes := h.declared text he "ghost" hghost
  rw [hno] at hyes
  cases hyes

end ContractBinding.Binding
