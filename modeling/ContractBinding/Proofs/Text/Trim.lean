import ContractBinding.Text.Blank
import ContractBinding.Text.Cut
import Mathlib.Data.List.DropRight

/-!
# Trimmed and cut texts

Trimming takes away blanks and nothing else, and only at the ends. A text is cut at the first
separator, whatever comes after it.
-/

namespace ContractBinding.Text

private theorem mem_dropWhile_isBlank_iff {c : Char} (h : isBlank c = false) {cs : List Char} :
    c ∈ cs.dropWhile isBlank ↔ c ∈ cs := by
  induction cs with
  | nil => simp
  | cons d rest ih =>
    rw [List.dropWhile_cons]
    split
    · next hd =>
      have hne : c ≠ d := by
        rintro rfl
        simp [h] at hd
      simp [ih, hne]
    · rfl

/-- A character that is not blank is still there. -/
theorem mem_trimChars_iff {c : Char} (h : isBlank c = false) {cs : List Char} :
    c ∈ trimChars cs ↔ c ∈ cs := by
  rw [trimChars, List.mem_reverse, mem_dropWhile_isBlank_iff h, List.mem_reverse,
    mem_dropWhile_isBlank_iff h]

private theorem dropWhile_isBlank_of_head {c : Char} {cs : List Char} (h : isBlank c = false)
    (hc : cs.head? = some c) : cs.dropWhile isBlank = cs := by
  cases cs with
  | nil => rfl
  | cons d rest =>
    cases hc
    simp [h]

/-- A visible ASCII character is not blank. -/
theorem isBlank_eq_false {c : Char} (hl : 0x21 ≤ c.toNat) (hu : c.toNat ≤ 0x7E) :
    isBlank c = false := by
  simp only [isBlank, Bool.or_eq_false_iff, Bool.and_eq_false_iff, decide_eq_false_iff_not,
    beq_eq_false_iff_ne]
  omega

/-- A text with no blank at either end is trimmed. -/
theorem trimChars_eq_self {c d : Char} {cs : List Char} (hc : cs.head? = some c)
    (hd : cs.getLast? = some d) (hcb : isBlank c = false) (hdb : isBlank d = false) :
    trimChars cs = cs := by
  have hlast : cs.reverse.head? = some d := by rw [List.head?_reverse, hd]
  rw [trimChars, dropWhile_isBlank_of_head hcb hc, dropWhile_isBlank_of_head hdb hlast,
    List.reverse_reverse]

/-- A text without blanks is trimmed. -/
theorem trimChars_of_forall {cs : List Char} (h : ∀ c ∈ cs, isBlank c = false) :
    trimChars cs = cs := by
  have hdrop {ds : List Char} (hds : ∀ c ∈ ds, isBlank c = false) : ds.dropWhile isBlank = ds :=
    List.dropWhile_eq_self_iff.2 fun hl => by simp [hds _ (List.getElem_mem hl)]
  have hback : ∀ c ∈ cs.reverse, isBlank c = false := fun c hc => h c (List.mem_reverse.1 hc)
  rw [trimChars, hdrop h, hdrop hback, List.reverse_reverse]

/-- What has been trimmed is trimmed. -/
theorem trimChars_trimChars (cs : List Char) : trimChars (trimChars cs) = trimChars cs := by
  have hfront : (trimChars cs).dropWhile isBlank = trimChars cs := by
    have hprefix : trimChars cs <+: cs.dropWhile isBlank := List.rdropWhile_prefix isBlank _
    refine List.dropWhile_eq_self_iff.2 fun hl => ?_
    have hfirst := List.dropWhile_eq_self_iff.1 (List.dropWhile_idempotent isBlank cs)
      (Nat.lt_of_lt_of_le hl hprefix.length_le)
    rwa [← hprefix.getElem hl] at hfirst
  have hback : (trimChars cs).rdropWhile isBlank = trimChars cs :=
    List.rdropWhile_idempotent isBlank _
  calc trimChars (trimChars cs)
      = ((trimChars cs).dropWhile isBlank).rdropWhile isBlank := rfl
    _ = trimChars cs := by rw [hfront, hback]

/-- A text is cut at a separator that does not stand before. -/
theorem cut?_append {sep : Char} {front back : List Char} (h : sep ∉ front) :
    cut? sep (front ++ sep :: back) = some (front, back) := by
  induction front with
  | nil => simp [cut?]
  | cons c rest ih =>
    rw [List.mem_cons, not_or] at h
    rw [List.cons_append, cut?, if_neg (Ne.symm h.1), ih h.2, Option.map_some]

/-- A text is cut at the first separator. -/
theorem cut?_eq_some_iff {sep : Char} {cs front back : List Char} :
    cut? sep cs = some (front, back) ↔ cs = front ++ sep :: back ∧ sep ∉ front := by
  constructor
  · exact cut?_eq_some
  · rintro ⟨rfl, h⟩
    exact cut?_append h

end ContractBinding.Text
