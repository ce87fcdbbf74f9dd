import ContractBinding.Proofs.Name.Casing
import ContractBinding.Proofs.Name.Identifier

/-!
# Names as they stand in code

A name of the generated code is an identifier, or a literal between single quotes that ends on its
line. Each way in which a name of a contract comes into the code is looked at for what it takes to
be one: exported names always are identifiers, keys are names as long as they have no line break,
and the methods of a contract are if their own names or their first letters allow it.
-/

namespace ContractBinding.Name

variable {name contract declared field : String}

/-- A character that ends a line of code. -/
def isLineBreak (c : Char) : Bool := c = '\n' || c = '\r' || c = '\u2028' || c = '\u2029'

/-- A text within one line of code. -/
def isOneLine (s : String) : Bool := s.toList.all fun c => !isLineBreak c

/-- Characters that close the quotes before them, with their last character and on one line. A
backslash takes the character after it along. -/
def closesQuotes : List Char → Bool
  | [] => false
  | [c] => c = '\''
  | c :: d :: rest =>
    if c = '\\' then !isLineBreak d && closesQuotes rest
    else c ≠ '\'' && !isLineBreak c && closesQuotes (d :: rest)

/-- A literal between single quotes on one line. -/
def isQuoted (s : String) : Bool :=
  match s.toList with
  | '\'' :: rest => closesQuotes rest
  | _ => false

/-- An identifier, or a literal between single quotes on one line. -/
def isLexeme (s : String) : Bool := isIdentifier s || isQuoted s

/-! ### Literals -/

/-- What closes quotes ends in a quote. -/
theorem getLast?_of_closesQuotes {cs : List Char} (h : closesQuotes cs = true) :
    cs.getLast? = some '\'' := by
  fun_induction closesQuotes cs with
  | case1 => simp at h
  | case2 c => simpa using h
  | case3 d rest ih =>
    rw [Bool.and_eq_true] at h
    have hrest := ih h.2
    cases rest with
    | nil => simp at hrest
    | cons e rest => rwa [List.getLast?_cons_cons, List.getLast?_cons_cons]
  | case4 c d rest _ ih =>
    rw [Bool.and_eq_true] at h
    rw [List.getLast?_cons_cons]
    exact ih h.2

/-- What is quoted ends in a quote. -/
theorem isQuoted_eq_false {c : Char} (h : name.toList.getLast? = some c) (hc : c ≠ '\'') :
    isQuoted name = false := by
  refine Bool.eq_false_iff.2 fun hquoted => hc ?_
  unfold isQuoted at hquoted
  split at hquoted
  · next rest hname =>
    have hlast := getLast?_of_closesQuotes hquoted
    cases rest with
    | nil => simp at hlast
    | cons d rest =>
      rw [hname, List.getLast?_cons_cons, hlast] at h
      exact (Option.some.inj h).symm
  · simp at hquoted

/-- A name between quotes closes them on its line exactly where it has no line break. -/
theorem closesQuotes_keyChars (cs : List Char) :
    closesQuotes (cs.flatMap keyChar ++ ['\'']) = cs.all fun c => !isLineBreak c := by
  induction cs with
  | nil => rfl
  | cons c rest ih =>
    -- What follows the first character is never empty: the closing quote is in it.
    obtain ⟨d, more, hmore⟩ : ∃ d more, rest.flatMap keyChar ++ ['\''] = d :: more :=
      List.exists_cons_of_ne_nil (by simp)
    rw [List.flatMap_cons, List.append_assoc, List.all_cons, ← ih, hmore, keyChar]
    split
    · have hbackslash (c : Char) (cs : List Char) : closesQuotes ('\\' :: c :: cs) =
          (!isLineBreak c && closesQuotes cs) := by
        rw [closesQuotes, if_pos rfl]
      exact hbackslash _ _
    · next hplain =>
      rw [not_or] at hplain
      rw [List.singleton_append, closesQuotes, if_neg hplain.1]
      simp [hplain.2]

/-- No line break stands in an identifier. -/
theorem isLineBreak_of_isIdentifierPart {c : Char} (h : isIdentifierPart c = true) :
    isLineBreak c = false := by
  refine Bool.eq_false_iff.2 fun hbreak => ?_
  simp only [isLineBreak, Bool.or_eq_true, decide_eq_true_eq] at hbreak
  rcases hbreak with ((rfl | rfl) | rfl) | rfl
  all_goals exact absurd h (by decide)

/-- An identifier is on one line. -/
theorem isOneLine_of_isIdentifier (h : isIdentifier name = true) : isOneLine name = true := by
  refine List.all_eq_true.2 fun c hc => ?_
  rw [isLineBreak_of_isIdentifierPart (isIdentifierPart_of_isIdentifier h c hc)]
  rfl

/-! ### The names of the code -/

/-- The key of a field is a lexeme exactly where the name of the field is on one line. -/
theorem isLexeme_propertyKey (field : String) :
    isLexeme (propertyKey field) = isOneLine field := by
  unfold propertyKey isLexeme
  split
  · next h =>
    rw [h, isOneLine_of_isIdentifier h]
    rfl
  · rw [List.cons_append, isIdentifier_quoted, Bool.false_or, isQuoted, String.toList_ofList]
    exact closesQuotes_keyChars _

/-- Letters and digits are characters of identifiers. -/
theorem isIdentifierPart_of_isAlphanum {c : Char} (h : c.isAlphanum = true) :
    isIdentifierPart c = true := by
  rw [isIdentifierPart, h]
  rfl

/-- The exported name of a declaration is an identifier, if that of its contract is. -/
theorem isIdentifier_typeName (h : isIdentifier contract = true) (declared : String) :
    isIdentifier (typeName contract declared) = true := by
  refine isIdentifier_append h fun c hc => ?_
  rw [pascalCase, String.toList_ofList] at hc
  exact isIdentifierPart_of_isAlphanum (isAlphanum_of_mem_pascalChars hc)

/-- The object method of an action is a lexeme exactly where it is an identifier. -/
theorem isLexeme_objectMethod (action : String) :
    isLexeme (objectMethod action) = isIdentifier (objectMethod action) := by
  have hlast : (objectMethod action).toList.getLast? = some 'O' := by simp [objectMethod]
  rw [isLexeme, isQuoted_eq_false hlast (by decide), Bool.or_false]

/-- The methods of an action are lexemes exactly where the action itself is named by an
identifier. -/
theorem isLexeme_methods_iff (action : String) :
    isLexeme action = true ∧ isLexeme (objectMethod action) = true ↔
      isIdentifier action = true := by
  rw [isLexeme_objectMethod]
  constructor
  · rintro ⟨hname, hobject⟩
    unfold objectMethod isIdentifier at hobject
    rw [String.toList_append] at hobject
    unfold isIdentifier
    cases hchars : action.toList with
    | nil => simp [isLexeme, isIdentifier, isQuoted, hchars, isIdentifierChars] at hname
    | cons first rest =>
      rw [hchars, List.cons_append, isIdentifierChars, List.all_append, ← Bool.and_assoc,
        Bool.and_eq_true] at hobject
      exact hobject.1
  · intro h
    refine ⟨?_, isIdentifier_append h (List.all_eq_true.1 (by decide))⟩
    rw [isLexeme, h, Bool.true_or]

/-- A name starts with a digit. -/
def startsWithDigit (s : String) : Bool := s.toList.head?.any Char.isDigit

/-- Characters of identifiers are an identifier unless the first is a digit. -/
theorem isIdentifier_eq_not_startsWithDigit (hne : name.toList ≠ [])
    (h : ∀ c ∈ name.toList, isIdentifierPart c = true) :
    isIdentifier name = !startsWithDigit name := by
  unfold isIdentifier startsWithDigit
  obtain ⟨first, rest, hname⟩ := List.exists_cons_of_ne_nil hne
  rw [hname] at h ⊢
  rw [Bool.eq_iff_iff, isIdentifierChars_cons_iff h]
  simp

/-- The accessor of a table is a lexeme exactly where it does not start with a digit. -/
theorem isLexeme_tableAccessor (table : String) :
    isLexeme (tableAccessor table) = !startsWithDigit (tableAccessor table) := by
  have hlast : (tableAccessor table).toList.getLast? = some 'e' := by simp [tableAccessor]
  rw [isLexeme, isQuoted_eq_false hlast (by decide), Bool.or_false]
  refine isIdentifier_eq_not_startsWithDigit (by simp [tableAccessor]) fun c hc => ?_
  rw [tableAccessor, String.toList_append, List.mem_append, camelCase, String.toList_ofList] at hc
  rcases hc with hcased | htable
  · exact isIdentifierPart_of_isAlphanum (isAlphanum_of_mem_camelChars hcased)
  · exact List.all_eq_true.1 (by decide : "Table".toList.all isIdentifierPart = true) c htable

end ContractBinding.Name
