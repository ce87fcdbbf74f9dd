import ContractBinding.Proofs.Table.Shape
import ContractBinding.Proofs.Type.Spelling
import Mathlib.Data.List.Find

/-!
# Tags of variants

A branch of a variant may be told by the text of its type or by its position. The text stands for
one type only, and for the first branch of this type; a value that has it as its tag is read like
one that has the position of this branch.
-/

namespace ContractBinding.Table

open Abi (Graph ResolvedTypes)
open FieldType (Spells)
open Host (ValuePath)

variable {doc : Abi.Document} {g : Graph} {variant other : Abi.Variant} {b c : Abi.Branch}
  {text : String} {expr : TypeExpr}

/-- The type of a branch has been read from a token without marks. -/
theorem exists_parse_of_branch (hg : ResolvedTypes doc g) (hv : variant ∈ g.variants)
    (hb : b ∈ variant.branches) : ∃ token, FieldType.parse token = .ok ⟨b.type, false, false⟩ := by
  obtain ⟨position, hposition⟩ := List.mem_iff_getElem?.1 hb
  obtain ⟨token, hr⟩ := hg.exists_resolveBranch hv hposition
  exact ⟨token, (Abi.resolvePlain_eq_ok_iff.1 (Abi.resolveBranch_eq_ok_iff.1 hr).2).1⟩

/-- A text is written for the type of a branch exactly where it is the plain spelling of it. -/
theorem display_branch_iff (hg : ResolvedTypes doc g) (hv : variant ∈ g.variants)
    (hb : b ∈ variant.branches) : b.type.display = text ↔ Spells text b.type := by
  obtain ⟨token, hread⟩ := exists_parse_of_branch hg hv hb
  exact (FieldType.spells_iff hread).symm

/-- Branches whose types are written alike have the same type. -/
theorem type_eq_of_display_eq (hg : ResolvedTypes doc g) (hv : variant ∈ g.variants)
    (hb : b ∈ variant.branches) (ho : other ∈ g.variants) (hc : c ∈ other.branches)
    (h : b.type.display = c.type.display) : b.type = c.type :=
  ((display_branch_iff hg hv hb).1 h).unique ((display_branch_iff hg ho hc).1 rfl)

/-- The plain spelling of a type selects the first branch of this type. -/
theorem branchNamed?_of_spells (hg : ResolvedTypes doc g) (hv : variant ∈ g.variants)
    (h : Spells text expr) :
    variant.branchNamed? text = variant.branches.find? fun b => b.type = expr := by
  unfold Abi.Variant.branchNamed?
  refine List.find?_congr fun b hb => ?_
  have hiff : b.type.display = text ↔ b.type = expr := by
    rw [display_branch_iff hg hv hb]
    exact ⟨fun hspells => hspells.unique h, fun htype => htype ▸ h⟩
  exact decide_eq_decide.2 hiff

/-- A text that is the plain spelling of no type selects no branch. -/
theorem branchNamed?_eq_none (hg : ResolvedTypes doc g) (hv : variant ∈ g.variants)
    (h : ∀ expr, ¬ Spells text expr) : variant.branchNamed? text = none := by
  refine List.find?_eq_none.2 fun b hb hdisplay => ?_
  exact h b.type ((display_branch_iff hg hv hb).1 (of_decide_eq_true hdisplay))

/-- The text of a branch's type selects what the position of the first branch of this type
selects. -/
theorem exists_tagged?_display (hg : ResolvedTypes doc g) (hv : variant ∈ g.variants)
    (hb : b ∈ variant.branches) : ∃ first, tagged? variant (.text b.type.display) = some first ∧
      tagged? variant (.int (variant.branches.findIdx fun c => c.type = b.type)) = some first := by
  have hspells := (display_branch_iff hg hv hb).1 rfl
  have hfound : (variant.branches.find? fun c => c.type = b.type).isSome = true :=
    List.find?_isSome.2 ⟨b, hb, by simp⟩
  obtain ⟨first, hfirst⟩ := Option.isSome_iff_exists.1 hfound
  refine ⟨first, ?_, ?_⟩
  · exact (branchNamed?_of_spells hg hv hspells).trans hfirst
  · rw [List.find?_eq_getElem?_findIdx] at hfirst
    simpa [tagged?, Json.natural?, Abi.Variant.branch?] using hfirst

/-- Under a tag that selects a branch, the payload is read along the type of this branch. -/
theorem coerce_of_tagged? {c : Coercer} {place : ValuePath} {tag payload : Json}
    (hr : c.reading expr = .branches variant) (htag : tagged? variant tag = some b) :
    c.coerce place expr (.array [tag, payload]) =
      (c.coerce (place.push (.branch b.index)) b.type payload).map (.variant b.index) := by
  conv_lhs => unfold Coercer.coerce
  simp only [hr, htag]

/-- A value is read alike whether a branch is told by its type or by the position of the first
branch of this type. -/
theorem coerce_tag_eq (hg : ResolvedTypes doc g) (hv : variant ∈ g.variants)
    (hb : b ∈ variant.branches) (ht : g.StandsFor expr (.named variant.name)) (place : ValuePath)
    (payload : Json) :
    (Coercer.ofGraph g).coerce place expr (.array [.text b.type.display, payload]) =
      (Coercer.ofGraph g).coerce place expr
        (.array [.int (variant.branches.findIdx fun c => c.type = b.type), payload]) := by
  have hr : (Coercer.ofGraph g).reading expr = .branches variant :=
    (reading_eq_iff hg).2 (.branches ht (hg.variant?_eq_some_iff.2 ⟨hv, rfl⟩))
  obtain ⟨first, htext, hposition⟩ := exists_tagged?_display hg hv hb
  rw [coerce_of_tagged? hr htext, coerce_of_tagged? hr hposition]

/-- Tags are told apart by the types they are spellings of: a text selects the first branch of the
type that it spells, no two types share a text, and the text of a branch's type stands for the
lowest position of this type. -/
theorem tags_agree (h : Abi.resolve doc = .ok g) (hv : variant ∈ g.variants) :
    (∀ text expr, Spells text expr →
      variant.branchNamed? text = variant.branches.find? fun b => b.type = expr) ∧
    (∀ text, (∀ expr, ¬ Spells text expr) → variant.branchNamed? text = none) ∧
    (∀ b ∈ variant.branches, ∀ other ∈ g.variants, ∀ c ∈ other.branches,
      b.type.display = c.type.display → b.type = c.type) ∧
    ∀ b ∈ variant.branches, ∀ place expr payload, g.StandsFor expr (.named variant.name) →
      (Coercer.ofGraph g).coerce place expr (.array [.text b.type.display, payload]) =
        (Coercer.ofGraph g).coerce place expr
          (.array [.int (variant.branches.findIdx fun c => c.type = b.type), payload]) := by
  have hg := (Abi.resolve_eq_ok_iff.1 h).toResolvedTypes
  refine ⟨fun _ _ => branchNamed?_of_spells hg hv, fun _ => branchNamed?_eq_none hg hv, ?_, ?_⟩
  · intro b hb other ho c hc
    exact type_eq_of_display_eq hg hv hb ho hc
  · intro b hb place expr payload ht
    exact coerce_tag_eq hg hv hb ht place payload

/-- A contract with a choice that offers one type twice, and lists of it. -/
def choices : Abi.Document where
  version := none
  aliases := [⟨"points", "uint8"⟩]
  structs := []
  actions := []
  tables := []
  variants := [⟨"choice", ["points[]", "points", " points", "bool"]⟩]

/-- The choice of that contract. -/
def choice : Abi.Variant :=
  ⟨"choice", [⟨0, .array (.named "points")⟩, ⟨1, .named "points"⟩, ⟨2, .named "points"⟩,
    ⟨3, .primitive .bool⟩]⟩

/-- The graph of that contract. -/
def choicesGraph : Graph :=
  { version := none
    aliases := [⟨"points", .primitive .uint8⟩]
    structs := []
    actions := []
    tables := []
    variants := [choice]
    index := [("points", .alias 0), ("choice", .variant 0)] }

theorem tags_agree_choices : Abi.resolve choices = .ok choicesGraph ∧
    choice ∈ choicesGraph.variants ∧
    choice.branchNamed? "points" = some ⟨1, .named "points"⟩ ∧
    choice.branchNamed? " points" = none ∧
    (Coercer.ofGraph choicesGraph).coerce ⟨"row", []⟩ (.named "choice")
        (.array [.text "points", .int 5]) =
      (Coercer.ofGraph choicesGraph).coerce ⟨"row", []⟩ (.named "choice")
        (.array [.int 1, .int 5]) := by
  have hresolve : Abi.resolve choices = .ok choicesGraph :=
    Outcome.eq_ok_of_toOption (by decide +kernel)
  have hg := (Abi.resolve_eq_ok_iff.1 hresolve).toResolvedTypes
  have hchoice : choice ∈ choicesGraph.variants := by decide
  obtain ⟨hspelled, hother, -, hcoerce⟩ := tags_agree hresolve hchoice
  have hpoints : Spells "points" (.named "points") :=
    (display_branch_iff hg hchoice (b := ⟨1, .named "points"⟩) (by decide)).1 rfl
  have hblank : ∀ expr, ¬ Spells " points" expr := fun expr h => absurd h.trimmed (by decide)
  refine ⟨hresolve, hchoice, ?_, hother " points" hblank, ?_⟩
  · exact (hspelled "points" (.named "points") hpoints).trans (by decide)
  · exact hcoerce ⟨2, .named "points"⟩ (by decide) ⟨"row", []⟩ (.named "choice") (.int 5)
      (hg.behind_eq_iff.1 rfl)

end ContractBinding.Table
