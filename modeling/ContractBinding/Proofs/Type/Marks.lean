import ContractBinding.Proofs.Abi.WellFormed
import ContractBinding.Proofs.Text.Trim
import ContractBinding.Proofs.Type.Grammar

/-!
# The marks of a token

A token that is a type has the mark of an extension exactly when it holds a dollar sign, and the
mark of an optional value exactly when it holds a question mark.
-/

namespace ContractBinding.FieldType

/-- The marks of the type read from trimmed characters. -/
theorem marks_of_parseChars {cs : List Char} {type : FieldType} (h : parseChars cs = .ok type) :
    (type.binaryExtension = true ↔ '$' ∈ cs) ∧ (type.optional = true ↔ '?' ∈ cs) := by
  obtain ⟨parts, hbase, rfl, rfl⟩ := exists_parts_of_parseChars h
  obtain ⟨-, -, hdollar, hquestion⟩ := isBase_iff.1 hbase
  simp only [Parts.chars, Parts.type, List.mem_append,
    mem_body_iff (by decide : '$' ∉ ['[', ']']), mem_body_iff (by decide : '?' ∉ ['[', ']']),
    hdollar, hquestion]
  cases parts.optional <;> cases parts.binaryExtension <;> simp [mark]

/-- The marks of the type that a token is read as. -/
theorem marks_of_parse {token : String} {type : FieldType} (h : parse token = .ok type) :
    (type.binaryExtension = true ↔ '$' ∈ token.toList) ∧
      (type.optional = true ↔ '?' ∈ token.toList) := by
  have hc := marks_of_parseChars (Outcome.mapError_eq_ok_iff.1 h)
  rwa [Text.mem_trimChars_iff (by decide), Text.mem_trimChars_iff (by decide)] at hc

/-- A token without marks is a type without marks, and the other way round. -/
theorem unmarked_iff_of_parse {token : String} {type : FieldType} (h : parse token = .ok type) :
    Abi.Unmarked token ↔ type.binaryExtension = false ∧ type.optional = false := by
  obtain ⟨hext, hopt⟩ := marks_of_parse h
  rw [Abi.Unmarked, ← hext, ← hopt, Bool.not_eq_true, Bool.not_eq_true]

end ContractBinding.FieldType
