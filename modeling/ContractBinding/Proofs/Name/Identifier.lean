import ContractBinding.Name.Identifier
import Mathlib.Logic.Function.Basic

/-!
# Identifiers and property keys

An identifier holds the characters of identifiers only. A key of the generated code is read back
as the name of its field: an identifier stands for itself, and between quotes every character
stands for itself or after a backslash.
-/

namespace ContractBinding.Name

/-- What starts an identifier may stand in one. -/
theorem isIdentifierPart_of_isIdentifierStart {c : Char} (h : isIdentifierStart c = true) :
    isIdentifierPart c = true := by
  simp only [isIdentifierStart, isIdentifierPart, Char.isAlphanum, Bool.or_eq_true] at h ⊢
  rcases h with (h | h) | h
  · exact .inl (.inl (.inl h))
  · exact .inl (.inr h)
  · exact .inr h

/-- An identifier holds the characters of identifiers. -/
theorem isIdentifierPart_of_isIdentifier {s : String} (h : isIdentifier s = true) :
    ∀ c ∈ s.toList, isIdentifierPart c = true := by
  unfold isIdentifier isIdentifierChars at h
  split at h
  · simp at h
  · next first rest hs =>
    rw [Bool.and_eq_true, List.all_eq_true] at h
    rw [hs, List.forall_mem_cons]
    exact ⟨isIdentifierPart_of_isIdentifierStart h.1, h.2⟩

/-- A letter is no digit. -/
theorem isDigit_of_isAlpha {c : Char} (h : c.isAlpha = true) : c.isDigit = false := by
  have hupper (h : c.isUpper = true) : 65 ≤ c.val.toNat := (of_decide_eq_true h).1
  have hlower (h : c.isLower = true) : 97 ≤ c.val.toNat :=
    of_decide_eq_true (Bool.and_eq_true_iff.1 h).1
  have hdigit (h : c.isDigit = true) : c.val.toNat ≤ 57 :=
    of_decide_eq_true (Bool.and_eq_true_iff.1 h).2
  refine Bool.eq_false_iff.2 fun hdigits => ?_
  have hbound := hdigit hdigits
  rcases Bool.or_eq_true_iff.1 h with hletter | hletter
  · have hletters := hupper hletter
    omega
  · have hletters := hlower hletter
    omega

/-- A character of identifiers may start one unless it is a digit. -/
theorem isIdentifierStart_iff {c : Char} (h : isIdentifierPart c = true) :
    isIdentifierStart c = true ↔ c.isDigit = false := by
  simp only [isIdentifierStart, isIdentifierPart, Char.isAlphanum, Bool.or_eq_true,
    decide_eq_true_eq] at h ⊢
  constructor
  · rintro ((halpha | rfl) | rfl)
    · exact isDigit_of_isAlpha halpha
    · rfl
    · rfl
  · intro hdigit
    simpa [hdigit] using h

/-- Characters of identifiers are an identifier where the first of them is no digit. -/
theorem isIdentifierChars_cons_iff {first : Char} {rest : List Char}
    (h : ∀ c ∈ first :: rest, isIdentifierPart c = true) :
    isIdentifierChars (first :: rest) = true ↔ first.isDigit = false := by
  rw [List.forall_mem_cons] at h
  rw [isIdentifierChars, List.all_eq_true.2 h.2, Bool.and_true, isIdentifierStart_iff h.1]

/-- What follows an identifier may be any characters of identifiers. -/
theorem isIdentifier_append {name more : String} (h : isIdentifier name = true)
    (hmore : ∀ c ∈ more.toList, isIdentifierPart c = true) :
    isIdentifier (name ++ more) = true := by
  unfold isIdentifier at h ⊢
  rw [String.toList_append]
  cases hname : name.toList with
  | nil => simp [hname, isIdentifierChars] at h
  | cons first rest =>
    rw [hname, isIdentifierChars, Bool.and_eq_true] at h
    rw [List.cons_append, isIdentifierChars, List.all_append, h.1, h.2, List.all_eq_true.2 hmore]
    rfl

/-- The characters that stand between quotes, a backslash pair for its second character. -/
def unescape : List Char → List Char
  | '\\' :: c :: rest => c :: unescape rest
  | c :: rest => c :: unescape rest
  | [] => []

/-- The name that a key stands for. -/
def readKey (key : String) : String :=
  if isIdentifier key then key else String.ofList (unescape key.toList.tail.dropLast)

private theorem unescape_cons {c : Char} (h : c ≠ '\\') (rest : List Char) :
    unescape (c :: rest) = c :: unescape rest := by
  rw [unescape]
  rintro d ds rfl
  exact absurd rfl h

/-- Characters inside of quotes are read back. -/
theorem unescape_keyChars (name : List Char) : unescape (name.flatMap keyChar) = name := by
  induction name with
  | nil => rfl
  | cons c rest ih =>
    rw [List.flatMap_cons, keyChar]
    split
    · rw [List.cons_append, List.singleton_append, unescape, ih]
    · next h =>
      rw [not_or] at h
      rw [List.singleton_append, unescape_cons h.1, ih]

/-- What stands between quotes is no identifier. -/
theorem isIdentifier_quoted (cs : List Char) :
    isIdentifier (String.ofList ('\'' :: cs)) = false := by
  rw [isIdentifier, String.toList_ofList, isIdentifierChars]
  rfl

/-- A key is read back as the name of its field. -/
theorem readKey_propertyKey (field : String) : readKey (propertyKey field) = field := by
  unfold propertyKey
  split
  · next h => rw [readKey, if_pos h]
  · rw [readKey, List.cons_append, isIdentifier_quoted, if_neg Bool.false_ne_true,
      String.toList_ofList, List.tail_cons, List.dropLast_concat, unescape_keyChars,
      String.ofList_toList]

/-- No two fields have one key. -/
theorem propertyKey_injective : Function.Injective propertyKey :=
  Function.LeftInverse.injective readKey_propertyKey

end ContractBinding.Name
