import ContractBinding.Proofs.Type.Spelling

/-!
# Reading and writing tokens

Exactly the tokens are read, between blanks, and each as the type that its parts say. A type is
written as the token that it was read from; and what a type is written as reads as the type again,
unless it holds a name that no type of a contract could have.
-/

namespace ContractBinding

namespace TypeExpr

/-- The type below all array levels. -/
def leaf : TypeExpr → TypeExpr
  | .array element => element.leaf
  | expr => expr

/-- A type is made of its leaf and its array levels. -/
theorem nest_leaf (expr : TypeExpr) : expr.leaf.nest expr.depth = expr := by
  induction expr with
  | primitive p => rfl
  | array element ih => rw [leaf, depth, nest, ih]
  | named name => rfl

theorem leaf_nest (depth : Nat) (expr : TypeExpr) : (nest depth expr).leaf = expr.leaf := by
  induction depth with
  | zero => rfl
  | succ depth ih => rw [nest, leaf, ih]

theorem depth_nest (levels : Nat) (expr : TypeExpr) :
    (nest levels expr).depth = expr.depth + levels := by
  induction levels with
  | zero => rfl
  | succ levels ih => rw [nest, depth, ih, Nat.add_assoc]

/-- There is no array below all array levels. -/
theorem leaf_ne_array (expr element : TypeExpr) : expr.leaf ≠ .array element := by
  induction expr with
  | primitive p => simp [leaf]
  | array inner ih => exact ih
  | named name => simp [leaf]

/-- The declared name below all array levels is the leaf, where it is a name. -/
theorem namedRef?_eq_some_iff {expr : TypeExpr} {name : String} :
    expr.namedRef? = some name ↔ expr.leaf = .named name := by
  induction expr with
  | primitive p => simp [namedRef?, leaf]
  | array element ih => exact ih
  | named other => simp [namedRef?, leaf]

variable {base name : String} {p : Primitive}

/-- A base is a built-in type exactly where it is its name. -/
theorem ofBase_eq_primitive_iff : ofBase base = .primitive p ↔ p.abiName = base := by
  unfold ofBase
  constructor
  · intro h
    split at h
    · next q hq =>
      cases h
      exact Primitive.abiName_of_ofName? hq
    · cases h
  · rintro rfl
    rw [Primitive.ofName?_abiName]

/-- All other bases are declared names. -/
theorem ofBase_eq_named_iff : ofBase base = .named name ↔
    name = base ∧ ∀ p : Primitive, p.abiName ≠ name := by
  constructor
  · intro h
    have hname : name = base := by rw [← display_ofBase base, h, display]
    refine ⟨hname, fun p hp => ?_⟩
    rw [ofBase_eq_primitive_iff.2 (hp.trans hname)] at h
    cases h
  · rintro ⟨rfl, hnone⟩
    unfold ofBase
    cases h : Primitive.ofName? name with
    | some p => exact absurd (Primitive.abiName_of_ofName? h) (hnone p)
    | none => rfl

theorem leaf_ofBase (base : String) : (ofBase base).leaf = ofBase base := by
  unfold ofBase
  split <;> rfl

theorem depth_ofBase (base : String) : (ofBase base).depth = 0 := by
  unfold ofBase
  split <;> rfl

end TypeExpr

namespace FieldType

/-- A type is what the parts of a token say: it has an array level for every pair of brackets, the
marks of the token, and for its leaf the built-in type whose name the base is, or else the name. -/
structure Parts.Denotes (parts : Parts) (type : FieldType) : Prop where
  depth_eq : type.expr.depth = parts.depth
  primitive_iff : ∀ p, type.expr.leaf = .primitive p ↔ p.abiName = String.ofList parts.base
  named_iff : ∀ name, type.expr.leaf = .named name ↔
    name = String.ofList parts.base ∧ ∀ p : Primitive, p.abiName ≠ name
  optional_eq : type.optional = parts.optional
  binaryExtension_eq : type.binaryExtension = parts.binaryExtension

variable {token : String} {type : FieldType} {parts : Parts}

/-- The parts of a token denote one type. -/
theorem Parts.denotes_iff : parts.Denotes type ↔ parts.type = type := by
  constructor
  · rintro ⟨hdepth, hprimitive, hnamed, hoptional, hextension⟩
    have hleaf : TypeExpr.ofBase (String.ofList parts.base) = type.expr.leaf := by
      cases hl : type.expr.leaf with
      | primitive p => exact TypeExpr.ofBase_eq_primitive_iff.2 ((hprimitive p).1 hl)
      | array element => exact absurd hl (type.expr.leaf_ne_array element)
      | named name => exact TypeExpr.ofBase_eq_named_iff.2 ((hnamed name).1 hl)
    rw [Parts.type, hleaf, ← hdepth, TypeExpr.nest_leaf, ← hoptional, ← hextension]
  · rintro rfl
    have hleaf : parts.type.expr.leaf = TypeExpr.ofBase (String.ofList parts.base) := by
      rw [Parts.type, TypeExpr.leaf_nest, TypeExpr.leaf_ofBase]
    refine ⟨?_, fun p => ?_, fun name => ?_, rfl, rfl⟩
    · rw [Parts.type, TypeExpr.depth_nest, TypeExpr.depth_ofBase, Nat.zero_add]
    · rw [hleaf, TypeExpr.ofBase_eq_primitive_iff]
    · rw [hleaf, TypeExpr.ofBase_eq_named_iff]

/-- The name of a built-in type is a base. -/
theorem isBase_abiName (p : Primitive) : IsBase p.abiName.toList :=
  isBase_iff.2 (by cases p <;> decide +kernel)

/-- A token has no blanks around it. -/
theorem Parts.trimChars_chars (h : IsBase parts.base) :
    Text.trimChars parts.chars = parts.chars := by
  refine Text.trimChars_of_forall fun c hc => ?_
  by_cases hbase : c ∈ parts.base
  · exact h.not_blank c hbase
  · have hother : c = '[' ∨ c = ']' ∨ c = '?' ∨ c = '$' := by
      simp only [chars, body, mark, List.mem_append, List.mem_flatten, List.mem_replicate] at hc
      grind
    rcases hother with rfl | rfl | rfl | rfl <;>
      exact Text.isBlank_eq_false (by decide) (by decide)

/-- What a type is written as reads as the type exactly if its name could be that of a declared
type. -/
theorem parse_display_iff : parse type.display = .ok type ↔
    ∀ name, type.expr.namedRef? = some name →
      IsBase name.toList ∧ ∀ p : Primitive, p.abiName ≠ name := by
  constructor
  · intro h name hname
    obtain ⟨parts, hbase, -, hparts⟩ := parse_eq_ok_iff.1 h
    have hnamed := ((Parts.denotes_iff.2 hparts).named_iff name).1
      (TypeExpr.namedRef?_eq_some_iff.1 hname)
    rw [hnamed.1, String.toList_ofList]
    exact ⟨hbase, hnamed.1 ▸ hnamed.2⟩
  · intro h
    have hleaf : IsBase type.expr.leaf.display.toList ∧
        TypeExpr.ofBase type.expr.leaf.display = type.expr.leaf := by
      cases hl : type.expr.leaf with
      | primitive p => exact ⟨isBase_abiName p, TypeExpr.ofBase_eq_primitive_iff.2 rfl⟩
      | array element => exact absurd hl (type.expr.leaf_ne_array element)
      | named name =>
        obtain ⟨hbase, hnone⟩ := h name (TypeExpr.namedRef?_eq_some_iff.2 hl)
        exact ⟨hbase, TypeExpr.ofBase_eq_named_iff.2 ⟨rfl, hnone⟩⟩
    -- The parts are read off the type itself.
    let parts : Parts :=
      ⟨type.expr.leaf.display.toList, type.expr.depth, type.optional, type.binaryExtension⟩
    have htype : parts.type = type := by
      rw [Parts.type, String.ofList_toList, hleaf.2, TypeExpr.nest_leaf]
    refine parse_eq_ok_iff.2 ⟨parts, hleaf.1, ?_, htype⟩
    rw [Text.trim, String.toList_ofList, ← htype, Parts.toList_display,
      Parts.trimChars_chars hleaf.1]

/-- Exactly the tokens are read, whatever blanks are around them, and each as the type that its
parts denote. A type is written as its token without the blanks, and reads from what it is written
as exactly if its name, where it has one, is a base and not that of a built-in type. -/
theorem parse_iff_token :
    (∀ token, (∃ type, parse token = .ok type) ↔
      ∃ parts : Parts, IsBase parts.base ∧ parts.chars = (Text.trim token).toList) ∧
    (∀ (token : String) (parts : Parts) (type : FieldType), IsBase parts.base →
      parts.chars = (Text.trim token).toList → (parse token = .ok type ↔ parts.Denotes type)) ∧
    (∀ token type, parse token = .ok type → type.display = Text.trim token) ∧
    ∀ type, parse type.display = .ok type ↔ ∀ name, type.expr.namedRef? = some name →
      IsBase name.toList ∧ ∀ p : Primitive, p.abiName ≠ name := by
  refine ⟨fun token => ?_, fun token parts type hbase hchars => ?_, fun _ _ => display_of_parse,
    fun _ => parse_display_iff⟩
  · constructor
    · rintro ⟨type, h⟩
      obtain ⟨parts, hbase, hchars, -⟩ := parse_eq_ok_iff.1 h
      exact ⟨parts, hbase, hchars⟩
    · rintro ⟨parts, hbase, hchars⟩
      exact ⟨parts.type, parse_eq_ok_iff.2 ⟨parts, hbase, hchars, rfl⟩⟩
  · rw [Parts.denotes_iff]
    have hread := parse_eq_ok_iff.2 ⟨parts, hbase, hchars, rfl⟩
    rw [hread, Except.ok.injEq]

/-- An optional extension of rows of prizes, between blanks. -/
theorem parse_prizeRows :
    IsBase "prize".toList ∧
      (Parts.mk "prize".toList 2 true true).chars = (Text.trim " prize[][]?$\n").toList ∧
      parse " prize[][]?$\n" = .ok ⟨.array (.array (.named "prize")), true, true⟩ := by
  have hbase : IsBase "prize".toList := isBase_iff.2 (by decide)
  have hchars : (Parts.mk "prize".toList 2 true true).chars =
      (Text.trim " prize[][]?$\n").toList := by decide
  exact ⟨hbase, hchars,
    (parse_iff_token.2.1 _ ⟨"prize".toList, 2, true, true⟩ _ hbase hchars).2
      (Parts.denotes_iff.2 (by decide))⟩

end FieldType

end ContractBinding
