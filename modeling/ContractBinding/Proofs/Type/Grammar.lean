import ContractBinding.Proofs.Outcome
import ContractBinding.Type.Expr
import Mathlib.Data.List.Basic

/-!
# The grammar of type tokens

A token is a base, a pair of brackets for every array level, and the marks `?` and `$`, each at most
once and in this order. Characters read as a type exactly if they are the text of such parts, and
the type is then that of the parts.
-/

namespace ContractBinding.FieldType

/-- Characters that may be the base of a token: at least one, and neither blanks nor brackets nor
marks. -/
structure IsBase (base : List Char) : Prop where
  ne_nil : base ≠ []
  not_blank : ∀ c ∈ base, Text.isBlank c = false
  plain : ∀ c ∈ ['[', ']', '$', '?'], c ∉ base

/-- The parts of a token. -/
structure Parts where
  base : List Char
  depth : Nat
  optional : Bool
  binaryExtension : Bool

/-- A mark where there is one. -/
def mark (c : Char) (present : Bool) : List Char := if present then [c] else []

namespace Parts

/-- A base with its array levels. -/
def body (parts : Parts) : List Char :=
  parts.base ++ (List.replicate parts.depth ['[', ']']).flatten

/-- The characters of a token. -/
def chars (parts : Parts) : List Char :=
  parts.body ++ mark '?' parts.optional ++ mark '$' parts.binaryExtension

/-- The type that a token denotes. -/
def type (parts : Parts) : FieldType where
  expr := (TypeExpr.ofBase (String.ofList parts.base)).nest parts.depth
  binaryExtension := parts.binaryExtension
  optional := parts.optional

end Parts

variable {cs : List Char} {c : Char} {parts : Parts} {type : FieldType}

/-- A mark that has been taken off stood at the end. -/
theorem stripMark_append (c : Char) (cs : List Char) :
    (stripMark c cs).1 ++ mark c (stripMark c cs).2 = cs := by
  unfold stripMark mark
  split
  · next h => simpa using List.dropLast_append_getLast? c h
  · simp

/-- Where a mark stands only at the end, it is taken off. -/
theorem stripMark_of_notMem (h : c ∉ cs) (present : Bool) :
    stripMark c (cs ++ mark c present) = (cs, present) := by
  cases present with
  | true => simp [stripMark, mark]
  | false =>
    have hlast : cs.getLast? ≠ some c := fun hl => h (List.mem_of_getLast? hl)
    simp [stripMark, mark, hlast]

/-- Brackets that have been taken off stood at the end. -/
theorem stripBrackets_append (cs : List Char) :
    (stripBrackets cs).1.reverse ++ (List.replicate (stripBrackets cs).2 ['[', ']']).flatten =
      cs.reverse := by
  fun_induction stripBrackets cs with
  | case1 rest base depth h ih =>
    simp only [h] at ih
    rw [List.replicate_succ', List.flatten_concat, ← List.append_assoc, ih]
    simp
  | case2 cs h => simp

/-- All brackets behind a base are taken off. -/
theorem stripBrackets_of_notMem (h : ']' ∉ cs) (depth : Nat) :
    stripBrackets (cs ++ (List.replicate depth ['[', ']']).flatten).reverse =
      (cs.reverse, depth) := by
  induction depth with
  | zero =>
    rw [List.replicate_zero, List.flatten_nil, List.append_nil]
    unfold stripBrackets
    split
    · next heq =>
      have hm : ']' ∈ cs.reverse := heq ▸ List.mem_cons_self ..
      exact absurd (List.mem_reverse.1 hm) h
    · rfl
  | succ depth ih =>
    have hstep : (cs ++ (List.replicate (depth + 1) ['[', ']']).flatten).reverse =
        ']' :: '[' :: (cs ++ (List.replicate depth ['[', ']']).flatten).reverse := by
      rw [List.replicate_succ', List.flatten_concat, ← List.append_assoc, List.reverse_append]
      rfl
    rw [hstep, stripBrackets, ih]

/-- A base is what passes the checks of the reader. -/
theorem isBase_iff {base : List Char} : IsBase base ↔
    base ≠ [] ∧ base.any isForbidden = false ∧ '$' ∉ base ∧ '?' ∉ base := by
  have hforbidden : base.any isForbidden = false ↔
      (∀ c ∈ base, Text.isBlank c = false) ∧ '[' ∉ base ∧ ']' ∉ base := by
    simp only [List.any_eq_false, isForbidden, Bool.or_eq_true, decide_eq_true_eq, not_or,
      Bool.not_eq_true]
    grind
  constructor
  · rintro ⟨hne, hblank, hplain⟩
    exact ⟨hne, hforbidden.2 ⟨hblank, hplain _ (by simp), hplain _ (by simp)⟩,
      hplain _ (by simp), hplain _ (by simp)⟩
  · rintro ⟨hne, h, hdollar, hquestion⟩
    obtain ⟨hblank, hopen, hclose⟩ := hforbidden.1 h
    exact ⟨hne, hblank, by simp [hopen, hclose, hdollar, hquestion]⟩

/-- Characters that read as a type are a token of it. -/
theorem exists_parts_of_parseChars (h : parseChars cs = .ok type) :
    ∃ parts : Parts, IsBase parts.base ∧ parts.chars = cs ∧ parts.type = type := by
  have hextension := stripMark_append '$' cs
  unfold parseChars at h
  generalize stripMark '$' cs = stripped at h hextension
  obtain ⟨front, extension⟩ := stripped
  have hoptional := stripMark_append '?' front
  dsimp only at h hextension
  generalize stripMark '?' front = stripped at h hoptional
  obtain ⟨body, optional⟩ := stripped
  have hbrackets := stripBrackets_append body.reverse
  dsimp only at h hoptional
  generalize stripBrackets body.reverse = stripped at h hbrackets
  obtain ⟨reversed, depth⟩ := stripped
  rw [List.reverse_reverse] at hbrackets
  dsimp only at h hbrackets
  subst hbrackets hoptional hextension
  split at h
  · cases h
  · next hdollar =>
    split at h
    · cases h
    · next hquestion =>
      split at h
      · cases h
      · next hne =>
        split at h
        · cases h
        · next hforbidden =>
          cases h
          refine ⟨⟨reversed.reverse, depth, optional, extension⟩, isBase_iff.2 ⟨?_, ?_, ?_, ?_⟩,
            rfl, rfl⟩
          · simpa using hne
          · simpa using hforbidden
          · exact fun hm => hdollar (by simp [hm])
          · exact fun hm => hquestion (by simp [hm])

/-- A character that is no bracket stands in the body of a token only if it stands in its base. -/
theorem mem_body_iff (h : c ∉ ['[', ']']) : c ∈ parts.body ↔ c ∈ parts.base := by
  simp only [Parts.body, List.mem_append, List.mem_flatten, List.mem_replicate]
  constructor
  · rintro (hbase | ⟨_, ⟨-, rfl⟩, hc⟩)
    · exact hbase
    · exact absurd hc h
  · exact Or.inl

/-- A token reads as the type of its parts. -/
theorem parseChars_chars (h : IsBase parts.base) : parseChars parts.chars = .ok parts.type := by
  obtain ⟨hne, hforbidden, hdollar, hquestion⟩ := isBase_iff.1 h
  have hclose : ']' ∉ parts.base := h.plain _ (by simp)
  have hoptional : '?' ∉ parts.body := by rwa [mem_body_iff (by decide)]
  have hextension : '$' ∉ parts.body ++ mark '?' parts.optional := by
    rw [List.mem_append, mem_body_iff (by decide)]
    cases parts.optional <;> simp [mark, hdollar]
  unfold parseChars
  rw [Parts.chars, stripMark_of_notMem hextension]
  dsimp only
  rw [stripMark_of_notMem hoptional]
  dsimp only
  rw [Parts.body, stripBrackets_of_notMem hclose, ← Parts.body]
  simp [hextension, hoptional, hne, hforbidden, Parts.type]

/-- A text reads as a type exactly if it is a token of it, between blanks. -/
theorem parse_eq_ok_iff {token : String} : parse token = .ok type ↔
    ∃ parts : Parts, IsBase parts.base ∧ parts.chars = (Text.trim token).toList ∧
      parts.type = type := by
  rw [parse, Outcome.mapError_eq_ok_iff, Text.trim, String.toList_ofList]
  constructor
  · exact exists_parts_of_parseChars
  · rintro ⟨parts, hbase, hchars, rfl⟩
    rw [← hchars, parseChars_chars hbase]

end ContractBinding.FieldType
