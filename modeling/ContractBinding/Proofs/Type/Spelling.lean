import ContractBinding.Proofs.Type.Marks

/-!
# The spelling of types

A type that has been read is written as the token that it was read from, without the blanks around
it. Its text then reads as the type again, so types that are written alike are the same.
-/

namespace ContractBinding

namespace TypeExpr

/-- A base is written as it is. -/
theorem display_ofBase (base : String) : (ofBase base).display = base := by
  unfold ofBase
  cases h : Primitive.ofName? base with
  | some p => exact Primitive.abiName_of_ofName? h
  | none => rfl

/-- Every array level adds a pair of brackets. -/
theorem toList_display_nest (depth : Nat) (expr : TypeExpr) :
    (nest depth expr).display.toList =
      expr.display.toList ++ (List.replicate depth ['[', ']']).flatten := by
  induction depth with
  | zero => simp [nest]
  | succ depth ih =>
    rw [nest, display, String.toList_append, ih, List.replicate_succ', List.flatten_concat,
      List.append_assoc]
    rfl

end TypeExpr

namespace FieldType

variable {cs : List Char} {token text : String} {type : FieldType} {expr : TypeExpr}

/-- The type of a token is written as the token. -/
theorem Parts.toList_display (parts : Parts) : parts.type.display.toList = parts.chars := by
  rw [display, String.toList_append, String.toList_append, Parts.type,
    TypeExpr.toList_display_nest, TypeExpr.display_ofBase, String.toList_ofList,
    apply_ite String.toList, apply_ite String.toList]
  rfl

/-- A type is written as the characters that it has been read from. -/
theorem toList_display_of_parseChars (h : parseChars cs = .ok type) :
    type.display.toList = cs := by
  obtain ⟨parts, -, rfl, rfl⟩ := exists_parts_of_parseChars h
  exact parts.toList_display

/-- A type is written as the token that it has been read from, without the blanks around it. -/
theorem display_of_parse (h : parse token = .ok type) : type.display = Text.trim token := by
  have hchars := toList_display_of_parseChars (Outcome.mapError_eq_ok_iff.1 h)
  rw [Text.trim, ← hchars, String.ofList_toList]

/-- What a type is written as reads as the type, and has no blanks around it. -/
theorem parse_display (h : parse token = .ok type) :
    parse type.display = .ok type ∧ Text.trim type.display = type.display := by
  have hchars := Outcome.mapError_eq_ok_iff.1 h
  have htrimmed : Text.trimChars type.display.toList = type.display.toList := by
    rw [toList_display_of_parseChars hchars, Text.trimChars_trimChars]
  refine ⟨?_, by rw [Text.trim, htrimmed, String.ofList_toList]⟩
  rw [parse, Outcome.mapError_eq_ok_iff, htrimmed, toList_display_of_parseChars hchars]
  exact hchars

/-- A text is the plain spelling of a type: it reads as the type and has neither marks nor blanks
around it. -/
structure Spells (text : String) (expr : TypeExpr) : Prop where
  reads : ∃ type, parse text = .ok type ∧ type.expr = expr
  unmarked : Abi.Unmarked text
  trimmed : Text.trim text = text

/-- A text is the plain spelling of one type at most. -/
theorem Spells.unique {other : TypeExpr} (h : Spells text expr) (ho : Spells text other) :
    expr = other := by
  obtain ⟨type, hread, rfl⟩ := h.reads
  obtain ⟨type', hread', rfl⟩ := ho.reads
  cases hread.symm.trans hread'
  rfl

/-- A type that has been read without marks has one plain spelling: what it is written as. -/
theorem spells_iff (h : parse token = .ok ⟨expr, false, false⟩) :
    Spells text expr ↔ expr.display = text := by
  have hplain : (FieldType.mk expr false false).display = expr.display := by simp [display]
  constructor
  · rintro ⟨⟨type, hread, rfl⟩, hunmarked, htrimmed⟩
    obtain ⟨hextension, hoptional⟩ := (unmarked_iff_of_parse hread).1 hunmarked
    have hdisplay := display_of_parse hread
    rw [display, hextension, hoptional, htrimmed] at hdisplay
    simpa using hdisplay
  · rintro rfl
    obtain ⟨hread, htrimmed⟩ := parse_display h
    rw [hplain] at hread htrimmed
    exact ⟨⟨_, hread, rfl⟩, (unmarked_iff_of_parse hread).2 ⟨rfl, rfl⟩, htrimmed⟩

end FieldType

end ContractBinding
