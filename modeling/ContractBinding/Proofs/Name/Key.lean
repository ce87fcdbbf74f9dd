import ContractBinding.Proofs.Name.Identifier

/-!
# Keys between quotes

A name that is no identifier becomes a key between single quotes. Its backslashes are escaped before
its quotes are, so that no backslash of a quote is escaped again, and of all quotes of the key only
the first and the last are bare. The name can be read back from its key, whatever it is.
-/

namespace ContractBinding.Name

/-- Put a backslash before every mark. -/
def escape (mark : Char) (cs : List Char) : List Char :=
  cs.flatMap fun c => if c = mark then ['\\', c] else [c]

/-- The places of the quotes that no backslash takes along with it, where the text begins at
`place`. -/
def bareQuotes (place : Nat) : List Char → List Nat
  | [] => []
  | '\\' :: _ :: rest => bareQuotes (place + 2) rest
  | c :: rest =>
    if c = '\'' then place :: bareQuotes (place + 1) rest else bareQuotes (place + 1) rest

/-- Escaping the backslashes and then the quotes escapes every character by itself. -/
theorem escape_escape (cs : List Char) :
    escape '\'' (escape '\\' cs) = cs.flatMap keyChar := by
  have hchar (c : Char) : escape '\'' (if c = '\\' then ['\\', c] else [c]) = keyChar c := by
    unfold escape keyChar
    by_cases hbackslash : c = '\\'
    · subst hbackslash
      rfl
    · rw [if_neg hbackslash, List.flatMap_singleton]
      by_cases hquote : c = '\''
      · rw [if_pos hquote, if_pos (.inr hquote)]
      · rw [if_neg hquote, if_neg (not_or.2 ⟨hbackslash, hquote⟩)]
  calc escape '\'' (escape '\\' cs)
      = cs.flatMap fun c => escape '\'' (if c = '\\' then ['\\', c] else [c]) := List.flatMap_assoc
    _ = cs.flatMap keyChar := congrArg cs.flatMap (funext hchar)

-- In the other order the backslash of a quote would be escaped too, and leave the quote bare.
example : bareQuotes 0 (escape '\\' (escape '\'' ['\''])) = [2] := by decide

/-- A character that is no backslash takes nothing along. -/
theorem bareQuotes_cons {c : Char} (hc : c ≠ '\\') (place : Nat) (rest : List Char) :
    bareQuotes place (c :: rest) =
      if c = '\'' then place :: bareQuotes (place + 1) rest else bareQuotes (place + 1) rest := by
  rw [bareQuotes]
  exact fun _ _ hbackslash _ => hc hbackslash

/-- No quote of an escaped name is bare. -/
theorem bareQuotes_keyChars (place : Nat) (cs rest : List Char) :
    bareQuotes place (cs.flatMap keyChar ++ rest) =
      bareQuotes (place + (cs.flatMap keyChar).length) rest := by
  induction cs generalizing place with
  | nil => rfl
  | cons c more ih =>
    rw [List.flatMap_cons, List.append_assoc, List.length_append, ← Nat.add_assoc, keyChar]
    split
    · exact ih (place + 2)
    · next hplain =>
      rw [not_or] at hplain
      rw [List.singleton_append, bareQuotes_cons hplain.1, if_neg hplain.2]
      exact ih (place + 1)

/-- A text is the key of a name: the name itself if that is an identifier, and otherwise the escaped
name between two bare quotes. -/
structure KeyOf (name key : String) : Prop where
  reads : readKey key = name
  plain : isIdentifier name = true → key = name
  /-- The backslashes of the name are escaped first, and then its quotes. -/
  quoted : isIdentifier name = false →
    key = String.ofList ('\'' :: escape '\'' (escape '\\' name.toList) ++ ['\''])
  /-- The quotes at the ends are the only ones that are not escaped. -/
  closed : isIdentifier name = false → bareQuotes 0 key.toList = [0, key.toList.length - 1]

/-- Every name has a key. -/
theorem keyOf_propertyKey (name : String) : KeyOf name (propertyKey name) := by
  have hquoted (h : isIdentifier name = false) :
      propertyKey name = String.ofList ('\'' :: name.toList.flatMap keyChar ++ ['\'']) := by
    rw [propertyKey, h, if_neg Bool.false_ne_true]
  constructor
  case reads => exact readKey_propertyKey name
  case plain => exact fun h => if_pos h
  case quoted => exact fun h => by rw [hquoted h, escape_escape]
  case closed =>
    intro h
    have hclosing (place : Nat) : bareQuotes place ['\''] = [place] := rfl
    rw [hquoted h, String.toList_ofList, List.cons_append, bareQuotes_cons (by decide), if_pos rfl,
      bareQuotes_keyChars, hclosing, List.length_cons, List.length_append, List.length_singleton,
      Nat.add_sub_cancel, Nat.zero_add, Nat.add_comm]

end ContractBinding.Name
