import ContractBinding.Proofs.Name.Identifier

/-!
# The names in a text

The names in a piece of code are its longest runs of characters of identifiers. What stands between
them, a bracket, a colon or a blank, separates them: a text with such a character in it has the
names before it and those after it, and no others.
-/

namespace ContractBinding.Name

variable {text name : String}

/-- The names in a text, in order. -/
def namesIn (text : String) : List String :=
  ((text.toList.splitOnP fun c => !isIdentifierPart c).filter (· ≠ [])).map String.ofList

/-- A text is split at every character that no identifier holds. -/
theorem namesIn_split (front : String) (c : Char) (back : String)
    (hc : isIdentifierPart c = false) (h : text.toList = front.toList ++ c :: back.toList) :
    namesIn text = namesIn front ++ namesIn back := by
  unfold namesIn
  rw [h, List.splitOnP_append_cons _ _ (by rw [hc]; rfl), List.filter_append, List.map_append]

/-- An identifier is the only name in itself. -/
theorem namesIn_of_isIdentifier (h : isIdentifier name = true) : namesIn name = [name] := by
  have hparts : ∀ c ∈ name.toList, (!isIdentifierPart c) = false := fun c hc => by
    rw [isIdentifierPart_of_isIdentifier h c hc]
    rfl
  have hne : name.toList ≠ [] := by
    intro hempty
    rw [isIdentifier, hempty] at h
    cases h
  unfold namesIn
  rw [List.splitOnP_eq_singleton hparts, List.filter_cons_of_pos (by simpa using hne)]
  simp

example : namesIn "\x7b key: Array<DaoSeat>; value: string|number \x7d" =
    ["key", "Array", "DaoSeat", "value", "string", "number"] := by decide

end ContractBinding.Name
