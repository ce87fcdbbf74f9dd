import ContractBinding.Proofs.Abi.Resolution
import ContractBinding.Proofs.Type.Token

/-!
# What a token means in two places

The type of an action or a table is taken for a name as it stands. The token of a field is read
first, and then a name gives way to the built-in type of that name, and loses the marks at its end.
The two meet where the name is a plain one, and only there a field can have the struct at all.
-/

namespace ContractBinding

/-- A name that reads as a declared one: a base, and not the name of a built-in type. -/
structure PlainName (name : String) : Prop where
  base : FieldType.IsBase name.toList
  declared : ∀ p : Primitive, p.abiName ≠ name

namespace FieldType

variable {token name : String} {optional extension : Bool}

/-- A base by itself is a token. -/
theorem Parts.chars_base (base : List Char) : (Parts.mk base 0 false false).chars = base := by
  simp [chars, body, mark]

/-- A token reads as a declared name exactly if the name is plain and only marks come after it. -/
theorem parse_eq_named_iff : parse token = .ok ⟨.named name, extension, optional⟩ ↔
    PlainName name ∧
      (Parts.mk name.toList 0 optional extension).chars = (Text.trim token).toList := by
  rw [parse_eq_ok_iff]
  constructor
  · rintro ⟨⟨base, depth, optional', extension'⟩, hbase, hchars, htype⟩
    obtain ⟨hdepth, -, hnamed, hoptional, hextension⟩ := Parts.denotes_iff.2 htype
    obtain ⟨rfl, hdeclared⟩ := (hnamed name).1 rfl
    cases hdepth
    cases hoptional
    cases hextension
    rw [String.toList_ofList]
    exact ⟨⟨by rwa [String.toList_ofList], hdeclared⟩, hchars⟩
  · rintro ⟨⟨hbase, hdeclared⟩, hchars⟩
    refine ⟨_, hbase, hchars, ?_⟩
    rw [Parts.type, String.ofList_toList, TypeExpr.ofBase_eq_named_iff.2 ⟨rfl, hdeclared⟩]
    rfl

end FieldType

/-- A plain name has no blanks around it. -/
theorem PlainName.trim_eq {name : String} (h : PlainName name) : Text.trim name = name := by
  rw [Text.trim, Text.trimChars_of_forall h.base.not_blank, String.ofList_toList]

/-- A plain name reads as itself, whatever blanks are around it. -/
theorem PlainName.parse_eq {token : String} (h : PlainName (Text.trim token)) :
    FieldType.parse token = .ok ⟨.named (Text.trim token), false, false⟩ :=
  FieldType.parse_eq_named_iff.2 ⟨h, FieldType.Parts.chars_base _⟩

namespace Abi

variable {doc : Document} {g : Graph} {s : Struct} {token : String}

/-- A field with the token is of the struct, perhaps by way of aliases. -/
def Graph.FieldDenotes (g : Graph) (token : String) (s : Struct) : Prop :=
  ∃ type, FieldType.parse token = .ok type ∧ g.behind type.expr = .named s.name

/-- Only names stand for a name. -/
theorem Graph.StandsFor.eq_named {expr : TypeExpr} {name : String}
    (h : g.StandsFor expr (.named name)) : ∃ other, expr = .named other := by
  cases h with
  | self _ => exact ⟨name, rfl⟩
  | link _ _ => exact ⟨_, rfl⟩

namespace ResolvedTypes

/-- The name of an alias's target is plain. -/
theorem plainName_of_linkIn (h : ResolvedTypes doc g) {a b : String}
    (hlink : LinkIn g.aliases a b) : PlainName b := by
  obtain ⟨entry, hm, -, htarget⟩ := hlink
  obtain ⟨decl, -, hr⟩ := Outcome.exists_mem_left (Outcome.mapM_eq_ok_iff.1 h.aliases) hm
  have hread := (resolvePlain_eq_ok_iff.1 (resolveAlias_eq_ok_iff.1 hr).2).1
  rw [htarget] at hread
  exact (FieldType.parse_eq_named_iff.1 hread).1

/-- Aliases lead from plain names to plain names only. -/
theorem plainName_of_behind (h : ResolvedTypes doc g) {a b : String} (ha : PlainName a)
    (hb : g.behind (.named a) = .named b) : PlainName b := by
  obtain ⟨hlinks, -⟩ :=
    (Graph.standsFor_named_iff fun _ _ => h.alias?_eq_some_iff).1 (h.behind_eq_iff.1 hb)
  rcases hlinks.cases_tail with rfl | ⟨c, -, hlast⟩
  · exact ha
  · exact h.plainName_of_linkIn hlast

/-- A field is of a struct exactly if its token is a plain name that the struct is behind, and marks
after it. -/
theorem fieldDenotes_iff (h : ResolvedTypes doc g) (hs : s ∈ g.structs) :
    g.FieldDenotes token s ↔ ∃ name optional extension, PlainName name ∧
      (FieldType.Parts.mk name.toList 0 optional extension).chars = (Text.trim token).toList ∧
      g.structBehind? name = some s := by
  constructor
  · rintro ⟨⟨expr, extension, optional⟩, hread, hbehind⟩
    obtain ⟨name, rfl⟩ := (h.behind_eq_iff.1 hbehind).eq_named
    obtain ⟨hplain, hchars⟩ := FieldType.parse_eq_named_iff.1 hread
    refine ⟨name, optional, extension, hplain, hchars, ?_⟩
    exact h.structBehind?_eq_some_iff_behind.2 ⟨hs, by rwa [hplain.trim_eq]⟩
  · rintro ⟨name, optional, extension, hplain, hchars, hname⟩
    refine ⟨_, FieldType.parse_eq_named_iff.2 ⟨hplain, hchars⟩, ?_⟩
    rw [← hplain.trim_eq]
    exact (h.structBehind?_eq_some_iff_behind.1 hname).2

/-- Fields can have a struct exactly if its own name is plain. -/
theorem exists_fieldDenotes_iff (h : ResolvedTypes doc g) (hs : s ∈ g.structs) :
    (∃ token, g.FieldDenotes token s) ↔ PlainName s.name := by
  constructor
  · rintro ⟨token, hdenotes⟩
    obtain ⟨name, -, -, hplain, -, hname⟩ := (h.fieldDenotes_iff hs).1 hdenotes
    refine h.plainName_of_behind hplain ?_
    rw [← hplain.trim_eq]
    exact (h.structBehind?_eq_some_iff_behind.1 hname).2
  · intro hplain
    have hself : g.structBehind? s.name = some s := by
      refine h.structBehind?_eq_some_iff_behind.2 ⟨hs, h.behind_eq_iff.2 ?_⟩
      rw [hplain.trim_eq]
      refine .self fun name hname => ?_
      cases hname
      exact h.alias?_eq_none_of_struct hs
    refine ⟨s.name, (h.fieldDenotes_iff hs).2 ⟨s.name, false, false, hplain, ?_, hself⟩⟩
    rw [FieldType.Parts.chars_base, hplain.trim_eq]

end ResolvedTypes

/-- In an accepted document a token that an action or a table has for a struct is one of that struct
in a field, too, if it is a plain name. In all it is exactly if, but for marks at its end, it is a
plain name that the struct is behind; and no token of a field is one of the struct unless the
struct's own name is plain. -/
theorem fieldDenotes_of_structBehind (h : resolve doc = .ok g)
    (hs : g.structBehind? token = some s) :
    (PlainName (Text.trim token) →
        FieldType.parse token = .ok ⟨.named (Text.trim token), false, false⟩ ∧
          g.behind (.named (Text.trim token)) = .named s.name ∧ g.struct? s.name = some s) ∧
      (g.FieldDenotes token s ↔ ∃ name optional extension, PlainName name ∧
        (FieldType.Parts.mk name.toList 0 optional extension).chars = (Text.trim token).toList ∧
        g.structBehind? name = some s) ∧
      ((∃ other, g.FieldDenotes other s) ↔ PlainName s.name) := by
  have hg := (resolve_eq_ok_iff.1 h).toResolvedTypes
  obtain ⟨hm, hbehind⟩ := hg.structBehind?_eq_some_iff_behind.1 hs
  refine ⟨fun hplain => ?_, hg.fieldDenotes_iff hm, hg.exists_fieldDenotes_iff hm⟩
  exact ⟨hplain.parse_eq, hbehind, hg.struct?_eq_some_iff.2 ⟨hm, rfl⟩⟩

/-- Orders have totals, which are amounts, and payments are structs by the name of amounts. -/
def payments : Document where
  version := none
  aliases := [⟨"bid", "order"⟩]
  structs := [⟨"asset", "", [⟨"holder", "name"⟩]⟩, ⟨"order", "", [⟨"total", "asset"⟩]⟩]
  actions := [⟨"pay", "asset", ""⟩, ⟨"place", " bid", ""⟩]
  tables := []
  variants := []

/-- The graph of the payments. -/
def paymentsGraph : Graph :=
  let holder : Field := ⟨"holder", ⟨.primitive .name, false, false⟩, "asset"⟩
  let total : Field := ⟨"total", ⟨.primitive .asset, false, false⟩, "order"⟩
  { version := none
    aliases := [⟨"bid", .named "order"⟩]
    structs := [⟨"asset", none, [holder], [holder]⟩, ⟨"order", none, [total], [total]⟩]
    actions := [⟨"pay", "asset", [holder], ""⟩, ⟨"place", "order", [total], ""⟩]
    tables := []
    variants := []
    index := [("bid", .alias 0), ("asset", .struct 0), ("order", .struct 1)] }

theorem resolve_payments : resolve payments = .ok paymentsGraph :=
  Outcome.eq_ok_of_toOption (by decide +kernel)

/-- A bid is an order, of an action and of a field alike. -/
theorem fieldDenotes_bid : resolve payments = .ok paymentsGraph ∧
    ∃ order ∈ paymentsGraph.structs, paymentsGraph.structBehind? " bid" = some order ∧
      FieldType.parse " bid" = .ok ⟨.named "bid", false, false⟩ ∧
      paymentsGraph.behind (.named "bid") = .named "order" := by
  have hbid : Text.trim " bid" = "bid" := by decide
  have hplain : PlainName (Text.trim " bid") := by
    rw [hbid]
    exact ⟨FieldType.isBase_iff.2 (by decide), fun p => by cases p <;> decide⟩
  have horder : 1 < paymentsGraph.structs.length := by decide
  have hs : paymentsGraph.structBehind? " bid" = some paymentsGraph.structs[1] := by rfl
  obtain ⟨hread, hbehind, -⟩ := (fieldDenotes_of_structBehind resolve_payments hs).1 hplain
  rw [hbid] at hread hbehind
  exact ⟨resolve_payments, _, List.getElem_mem horder, hs, hread, hbehind⟩

/-- An action pays with the struct, and the fields of the same type hold amounts; no field at all is
of the struct. -/
theorem asset_ambiguous : resolve payments = .ok paymentsGraph ∧
    ∃ s ∈ paymentsGraph.structs, paymentsGraph.structBehind? "asset" = some s ∧
      FieldType.parse "asset" = .ok ⟨.primitive .asset, false, false⟩ ∧
      ∀ token, ¬ paymentsGraph.FieldDenotes token s := by
  have hfirst : 0 < paymentsGraph.structs.length := by decide
  have hm : paymentsGraph.structs[0] ∈ paymentsGraph.structs := List.getElem_mem hfirst
  have hs : paymentsGraph.structBehind? "asset" = some paymentsGraph.structs[0] := by rfl
  refine ⟨resolve_payments, _, hm, hs, by rfl, fun token hdenotes => ?_⟩
  have hplain := ((resolve_eq_ok_iff.1 resolve_payments).exists_fieldDenotes_iff hm).1
    ⟨token, hdenotes⟩
  exact hplain.declared .asset rfl

end Abi

end ContractBinding
