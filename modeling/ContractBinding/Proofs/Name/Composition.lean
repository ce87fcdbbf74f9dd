import ContractBinding.Proofs.Name.Lexeme
import Mathlib

/-!
# Casing piece by piece

A name is cased piece by piece: at a separator what stands before it and what stands after it are
cased by themselves, and an array mark between them becomes its word. A cased name is one word, so
casing it again leaves it as it is, and the two ways of casing differ in the first letter only.
-/

namespace ContractBinding.Name

variable {word name tail : List Char} {later : List (List Char)} {c : Char}

/-- A character that ends a word and is no half of an array mark. -/
def isSeparator (c : Char) : Bool := !c.isAlphanum && c ≠ '[' && c ≠ ']'

/-! ### Words -/

/-- A word that ends in front of words ends in front of more of them. -/
theorem endWord_append (word : List Char) (words more : List (List Char)) :
    endWord word (words ++ more) = endWord word words ++ more := by
  unfold endWord
  split
  · rfl
  · rfl

/-- What begins no array mark goes on with the word or ends it. -/
theorem wordsFrom_cons (h : ∀ rest, c = '[' → name = ']' :: rest → False) :
    wordsFrom word (c :: name) =
      if c.isAlphanum then wordsFrom (word ++ [c]) name else endWord word (wordsFrom [] name) := by
  rw [wordsFrom]
  exact h

/-- Where a word ends at the head of `tail` and no array mark goes across, the words before and
after that place are those of the two texts. -/
theorem wordsFrom_append (hhead : tail.head? ≠ some ']')
    (htail : ∀ word, wordsFrom word tail = endWord word later) :
    wordsFrom word (name ++ tail) = wordsFrom word name ++ later := by
  -- Half a mark at the end of the text has no other half at the head of what follows.
  have hmark {c : Char} {rest : List Char} (h : ∀ r, c = '[' → rest = ']' :: r → False) :
      ∀ r, c = '[' → rest ++ tail = ']' :: r → False := by
    intro r hc hrest
    cases rest with
    | nil =>
      rw [List.nil_append] at hrest
      exact hhead (by rw [hrest, List.head?_cons])
    | cons d rest =>
      rw [List.cons_append, List.cons.injEq] at hrest
      exact h rest hc (by rw [hrest.1])
  fun_induction wordsFrom word name with
  | case1 word => rw [List.nil_append, htail, ← endWord_append, List.nil_append]
  | case2 word rest ih =>
    rw [List.cons_append, List.cons_append, wordsFrom, ih, ← endWord_append, List.cons_append]
  | case3 word c rest hno hc ih =>
    rw [List.cons_append, wordsFrom_cons (hmark hno), if_pos hc, ih]
  | case4 word c rest hno hc ih =>
    rw [List.cons_append, wordsFrom_cons (hmark hno), if_neg hc, ih, ← endWord_append]

/-- At a separator a word ends. -/
theorem wordsFrom_separator (hc : isSeparator c = true) (word name : List Char) :
    wordsFrom word (c :: name) = endWord word (words name) := by
  simp only [isSeparator, Bool.and_eq_true, Bool.not_eq_true', decide_eq_true_eq] at hc
  rw [wordsFrom_cons fun _ hbracket _ => hc.1.2 hbracket, hc.1.1, if_neg Bool.false_ne_true]
  rfl

/-- The words on both sides of a separator are the words of the two sides. -/
theorem words_append_separator (hc : isSeparator c = true) (before after : List Char) :
    words (before ++ c :: after) = words before ++ words after := by
  refine wordsFrom_append ?_ fun word => wordsFrom_separator hc word after
  intro hhead
  rw [List.head?_cons, Option.some.injEq] at hhead
  rw [hhead] at hc
  exact absurd hc (by decide)

/-- Between the words of two sides an array mark is a word. -/
theorem words_append_mark (before after : List Char) :
    words (before ++ '[' :: ']' :: after) = words before ++ arrayWord :: words after :=
  wordsFrom_append (by simp) fun _ => rfl

/-- No word is empty. -/
theorem ne_nil_of_mem_wordsFrom : ∀ w ∈ wordsFrom word name, w ≠ [] := by
  fun_induction wordsFrom word name with
  | case1 word => exact forall_mem_endWord id (List.forall_mem_nil _)
  | case2 word rest ih =>
    exact forall_mem_endWord id (List.forall_mem_cons.2 ⟨List.cons_ne_nil _ _, ih⟩)
  | case3 word c rest _ _ ih => exact ih
  | case4 word c rest _ _ ih => exact forall_mem_endWord id ih

/-- Letters and digits alone are one word. -/
theorem wordsFrom_of_isAlphanum (h : ∀ c ∈ name, c.isAlphanum = true) :
    wordsFrom word name = endWord (word ++ name) [] := by
  induction name generalizing word with
  | nil => rw [wordsFrom, List.append_nil]
  | cons c rest ih =>
    rw [List.forall_mem_cons] at h
    have hno : ∀ r, c = '[' → rest = ']' :: r → False := by
      rintro r rfl -
      exact absurd h.1 (by decide)
    rw [wordsFrom_cons hno, if_pos h.1, ih h.2, List.append_assoc, List.singleton_append]

/-! ### Casing -/

/-- The two sides of a separator are cased by themselves. -/
theorem pascalChars_append_separator (hc : isSeparator c = true) (before after : List Char) :
    pascalChars (before ++ c :: after) = pascalChars before ++ pascalChars after := by
  rw [pascalChars, words_append_separator hc, List.flatMap_append]
  rfl

/-- The two sides of an array mark are cased by themselves, and the word for it is between them. -/
theorem pascalChars_append_mark (before after : List Char) :
    pascalChars (before ++ '[' :: ']' :: after) =
      pascalChars before ++ (arrayWord ++ pascalChars after) := by
  rw [pascalChars, words_append_mark, List.flatMap_append, List.flatMap_cons]
  rfl

/-- Letters and digits alone are capitalised. -/
theorem pascalChars_of_isAlphanum (h : ∀ c ∈ name, c.isAlphanum = true) :
    pascalChars name = capitalize name := by
  rw [pascalChars, words, wordsFrom_of_isAlphanum h, List.nil_append]
  cases name with
  | nil => rfl
  | cons c rest => exact List.flatMap_singleton ..

/-- Words that are capitalised one by one are capitalised as a whole. -/
theorem capitalize_flatMap_capitalize (words : List (List Char)) :
    capitalize (words.flatMap capitalize) = words.flatMap capitalize := by
  induction words with
  | nil => rfl
  | cons word rest ih =>
    cases word with
    | nil => exact ih
    | cons c more =>
      rw [List.flatMap_cons, capitalize, List.cons_append, capitalize,
        Char.toUpper_toUpper_eq_toUpper]

/-- Casing a cased name leaves it as it is. -/
theorem pascalChars_pascalChars (name : List Char) :
    pascalChars (pascalChars name) = pascalChars name := by
  rw [pascalChars_of_isAlphanum fun _ => isAlphanum_of_mem_pascalChars]
  exact capitalize_flatMap_capitalize _

/-- Where the first word starts in lower case, nothing else is different. -/
theorem camelChars_eq (name : List Char) : camelChars name = uncapitalize (pascalChars name) := by
  have hwords : ∀ w ∈ words name, w ≠ [] := ne_nil_of_mem_wordsFrom
  unfold camelChars pascalChars
  cases hname : words name with
  | nil => rfl
  | cons first rest =>
    rw [hname, List.forall_mem_cons] at hwords
    obtain ⟨c, more, rfl⟩ := List.exists_cons_of_ne_nil hwords.1
    show c.toLower :: (more ++ rest.flatMap capitalize) =
      c.toUpper.toLower :: (more ++ rest.flatMap capitalize)
    rw [Char.toLower_toUpper_eq_toLower]

/-- Casing goes piece by piece, and makes one word of letters and digits. -/
structure CasingComposes : Prop where
  separator : ∀ (a b : String) (c : Char), isSeparator c = true →
    pascalCase (a ++ String.singleton c ++ b) = pascalCase a ++ pascalCase b
  mark : ∀ a b : String, pascalCase (a ++ "[]" ++ b) = pascalCase a ++ "Vec" ++ pascalCase b
  alphanum : ∀ (name : String), ∀ c ∈ (pascalCase name).toList, c.isAlphanum = true
  /-- A generated type is an identifier, whatever it is declared as. -/
  identifier : ∀ contract declared : String, isIdentifier contract = true →
    isIdentifier (typeName contract declared) = true
  again : ∀ name : String, pascalCase (pascalCase name) = pascalCase name
  /-- The two ways of casing differ in the first letter. -/
  camel : ∀ name : String, camelCase name = String.ofList (uncapitalize (pascalCase name).toList)

/-- Names are cased piece by piece, whatever their characters are. -/
theorem casing_composes : CasingComposes := by
  constructor
  case separator =>
    intro a b c hc
    apply String.toList_injective
    simp only [pascalCase, String.toList_append, String.toList_ofList, String.toList_singleton]
    rw [List.append_assoc, List.singleton_append, pascalChars_append_separator hc]
  case mark =>
    intro a b
    apply String.toList_injective
    simp only [pascalCase, String.toList_append, String.toList_ofList]
    rw [List.append_assoc, List.append_assoc]
    exact pascalChars_append_mark a.toList b.toList
  case alphanum =>
    intro name c hc
    rw [pascalCase, String.toList_ofList] at hc
    exact isAlphanum_of_mem_pascalChars hc
  case identifier => exact fun contract declared h => isIdentifier_typeName h declared
  case again =>
    intro name
    rw [pascalCase, pascalCase, String.toList_ofList, pascalChars_pascalChars]
  case camel =>
    intro name
    rw [camelCase, camelChars_eq, pascalCase, String.toList_ofList]

/-- The halves of an array mark are none with a separator between them, and with a whole mark
between them that is the only one. -/
theorem casing_composes_halfMarks : isSeparator '.' = true ∧ pascalCase "int8[.]x" = "Int8X" ∧
    pascalCase "int8[[]]x" = "Int8VecX" := by
  have hseparator : isSeparator '.' = true := by decide
  exact ⟨hseparator, (casing_composes.separator "int8[" "]x" '.' hseparator).trans (by decide),
    (casing_composes.mark "int8[" "]x").trans (by decide)⟩

end ContractBinding.Name
