import ContractBinding.Proofs.Outcome
import ContractBinding.Proofs.Text.Digits
import ContractBinding.Proofs.Text.Trim
import ContractBinding.Token.Asset

/-!
# Written amounts

An amount is written as a sign, digits, a point with decimals where there are any, a space and a
code. A text falls into parts exactly if it is written of them, whatever the code.
-/

namespace ContractBinding.Token

/-- A symbol is its precision and its code. -/
theorem Symbol.eq_of_parts {s t : Symbol} (hprecision : s.precision = t.precision)
    (hcode : s.code = t.code) : s = t := by
  cases s
  cases t
  cases hprecision
  cases hcode
  rfl

/-- An amount is its units and its symbol. -/
theorem Asset.eq_of_parts {a b : Asset} (hunits : a.units = b.units)
    (hsymbol : a.symbol = b.symbol) : a = b := by
  cases a
  cases b
  cases hunits
  cases hsymbol
  rfl

/-- What an amount is written of. -/
structure Written where
  negative : Bool
  whole : List Char
  decimals : List Char
  code : List Char

namespace Written

/-- The decimals behind their point; there is no point without decimals. -/
def pointed (decimals : List Char) : List Char :=
  if decimals = [] then [] else '.' :: decimals

/-- The sign before a number. -/
def signed (negative : Bool) (digits : List Char) : List Char :=
  if negative then '-' :: digits else digits

/-- The number of an amount. -/
def number (w : Written) : List Char := signed w.negative (w.whole ++ pointed w.decimals)

/-- The characters of an amount. -/
def chars (w : Written) : List Char := w.number ++ ' ' :: w.code

/-- The number is decimal: digits, at least one of them before the point. -/
structure IsDecimal (w : Written) : Prop where
  whole_ne_nil : w.whole ≠ []
  isDigit_whole : ∀ c ∈ w.whole, c.isDigit = true
  isDigit_decimals : ∀ c ∈ w.decimals, c.isDigit = true

/-- An amount can be written so: with eighteen decimals at most, and a code of one to seven
upper-case letters. -/
structure IsAmount (w : Written) : Prop extends w.IsDecimal where
  length_decimals_le : w.decimals.length ≤ 18
  one_le_length_code : 1 ≤ w.code.length
  length_code_le : w.code.length ≤ 7
  isUpper_code : ∀ c ∈ w.code, c.isUpper = true

/-- The units of the number without its sign. -/
def magnitude (w : Written) : Nat :=
  Text.ofDigits w.whole * 10 ^ w.decimals.length + Text.ofDigits w.decimals

/-- The units of the number. -/
def units (w : Written) : Int := if w.negative then -w.magnitude else w.magnitude

/-- What is written means the amount, to the unit. -/
structure Means (w : Written) (a : Asset) : Prop where
  precision_eq : a.symbol.precision = w.decimals.length
  code_eq : a.symbol.code.toList = w.code
  units_eq : a.units = w.units

variable {w : Written}

/-- What is written means one amount at most. -/
theorem Means.unique {a b : Asset} (ha : w.Means a) (hb : w.Means b) : a = b :=
  Asset.eq_of_parts (ha.units_eq.trans hb.units_eq.symm)
    (Symbol.eq_of_parts (ha.precision_eq.trans hb.precision_eq.symm)
      (String.toList_inj.1 (ha.code_eq.trans hb.code_eq.symm)))

/-- A decimal number is made of digits, but for its sign and its point. -/
theorem IsDecimal.mem_number (hw : w.IsDecimal) {c : Char} (hc : c ∈ w.number) :
    c = '-' ∨ c = '.' ∨ c.isDigit = true := by
  have hdigits (h : c ∈ w.whole ++ pointed w.decimals) : c = '.' ∨ c.isDigit = true := by
    rcases List.mem_append.1 h with hwhole | hrest
    · exact .inr (hw.isDigit_whole c hwhole)
    · unfold pointed at hrest
      split at hrest
      · cases hrest
      · exact (List.mem_cons.1 hrest).imp id (hw.isDigit_decimals c)
  unfold number signed at hc
  split at hc
  · exact (List.mem_cons.1 hc).imp id hdigits
  · exact .inr (hdigits hc)

/-- A decimal number without its sign begins with a digit. -/
theorem IsDecimal.exists_digit (hw : w.IsDecimal) :
    ∃ c rest, w.whole ++ pointed w.decimals = c :: rest ∧ c.isDigit = true := by
  obtain ⟨c, rest, hwhole⟩ := List.exists_cons_of_ne_nil hw.whole_ne_nil
  exact ⟨c, rest ++ pointed w.decimals, by rw [hwhole, List.cons_append],
    hw.isDigit_whole c (hwhole ▸ List.mem_cons_self ..)⟩

/-- No blanks stand around an amount: it begins with a sign or a digit, and ends with a letter. -/
theorem IsAmount.trimChars_chars (hw : w.IsAmount) : Text.trimChars w.chars = w.chars := by
  have hfirst : ∃ c, w.chars.head? = some c ∧ Text.isBlank c = false := by
    unfold chars number signed
    split
    · exact ⟨'-', rfl, by decide⟩
    · obtain ⟨c, rest, hdigits, hc⟩ := hw.exists_digit
      have hbounds := Text.toNat_of_isDigit hc
      rw [hdigits]
      exact ⟨c, rfl, Text.isBlank_eq_false (by omega) (by omega)⟩
  have hlast : ∃ c, w.chars.getLast? = some c ∧ Text.isBlank c = false := by
    have hne : w.code ≠ [] := List.length_pos_iff.1 hw.one_le_length_code
    have hbounds : 65 ≤ (w.code.getLast hne).toNat ∧ (w.code.getLast hne).toNat ≤ 90 :=
      of_decide_eq_true (hw.isUpper_code _ (List.getLast_mem hne))
    refine ⟨w.code.getLast hne, ?_, Text.isBlank_eq_false (by omega) (by omega)⟩
    rw [chars, List.getLast?_append, List.getLast?_cons, List.getLast?_eq_some_getLast hne]
    rfl
  obtain ⟨c, hc, hcb⟩ := hfirst
  obtain ⟨d, hd, hdb⟩ := hlast
  exact Text.trimChars_eq_self hc hd hcb hdb

end Written

namespace Asset

open Written

variable {w : Written} {cs digits whole decimals : List Char} {negative : Bool} {s : String}

/-- A sign that has been taken off stood in front. -/
theorem signed_of_splitSign (h : splitSign cs = (negative, digits)) :
    signed negative digits = cs := by
  unfold splitSign at h
  split at h <;> cases h <;> rfl

/-- A sign is taken off where the digits have none of their own. -/
theorem splitSign_signed (h : digits.head? ≠ some '-') :
    splitSign (signed negative digits) = (negative, digits) := by
  cases negative with
  | true => rfl
  | false =>
    unfold splitSign signed
    split
    · next rest heq =>
      rw [if_neg (by decide)] at heq
      exact absurd (by rw [heq]; rfl) h
    · rfl

/-- The decimals are what stands behind the first point. -/
theorem splitDecimals_eq_ok_iff : splitDecimals digits = .ok (whole, decimals) ↔
    digits = whole ++ pointed decimals ∧ '.' ∉ whole := by
  unfold splitDecimals
  cases hcut : Text.cut? '.' digits with
  | none =>
    rw [Text.cut?_eq_none_iff] at hcut
    constructor
    · intro h
      cases h
      exact ⟨by simp [pointed], hcut⟩
    · rintro ⟨rfl, -⟩
      by_cases hnil : decimals = []
      · simp [pointed, hnil]
      · simp [pointed, hnil] at hcut
  | some parts =>
    obtain ⟨front, back⟩ := parts
    constructor
    · intro h
      dsimp only at h
      split at h
      · cases h
      · next hback =>
        cases h
        have hne : decimals ≠ [] := by simpa using hback
        rw [pointed, if_neg hne]
        exact Text.cut?_eq_some_iff.1 hcut
    · rintro ⟨rfl, hwhole⟩
      by_cases hnil : decimals = []
      · rw [pointed, if_pos hnil, List.append_nil, Text.cut?_eq_none_iff.2 hwhole] at hcut
        cases hcut
      · rw [pointed, if_neg hnil, Text.cut?_append hwhole] at hcut
        cases hcut
        simp [hnil]

/-- A text that falls into parts is written of them. -/
theorem written_of_split (h : split s = .ok (w.negative, w.whole, w.decimals, w.code)) :
    (Text.trim s).toList = w.chars ∧ w.IsDecimal ∧ w.decimals.length ≤ 255 := by
  rw [Text.trim, String.toList_ofList]
  unfold split at h
  split at h
  · cases h
  · next number code hcut =>
    obtain ⟨hchars, -⟩ := Text.cut?_eq_some_iff.1 hcut
    cases hsign : splitSign number with
    | mk negative digits =>
      rw [hsign] at h
      obtain ⟨⟨whole, decimals⟩, hdecimals, h⟩ := Outcome.bind_eq_ok_iff.1 h
      dsimp only at h
      split at h
      · cases h
      · next hdigits =>
        split at h
        · cases h
        · next hlength =>
          simp only [Except.ok.injEq, Prod.mk.injEq] at h
          obtain ⟨rfl, rfl, rfl, rfl⟩ := h
          simp only [Bool.or_eq_true, List.isEmpty_iff, Bool.not_eq_true', not_or,
            Bool.not_eq_false, List.all_eq_true] at hdigits
          refine ⟨?_, ⟨hdigits.1.1, hdigits.1.2, hdigits.2⟩, Nat.not_lt.1 hlength⟩
          rw [hchars, Written.chars, Written.number, ← (splitDecimals_eq_ok_iff.1 hdecimals).1,
            signed_of_splitSign hsign]

/-- A text that is written of parts falls into them, unless there are decimals beyond counting. -/
theorem split_of_written (hs : (Text.trim s).toList = w.chars) (hw : w.IsDecimal) :
    split s = if 255 < w.decimals.length then .error .tooManyDecimals
      else .ok (w.negative, w.whole, w.decimals, w.code) := by
  have hspace : ' ' ∉ w.number := by
    intro hm
    have := hw.mem_number hm
    revert this
    decide
  have hsign : (w.whole ++ pointed w.decimals).head? ≠ some '-' := by
    obtain ⟨c, rest, hdigits, hc⟩ := hw.exists_digit
    rw [hdigits]
    rintro ⟨⟩
    simp at hc
  have hpoint : '.' ∉ w.whole := Text.not_mem_of_isDigit (by decide) hw.isDigit_whole
  have hne : w.whole.isEmpty = false := List.isEmpty_eq_false_iff.2 hw.whole_ne_nil
  have hwhole : w.whole.all Char.isDigit = true := List.all_eq_true.2 hw.isDigit_whole
  have hdecimals : w.decimals.all Char.isDigit = true := List.all_eq_true.2 hw.isDigit_decimals
  rw [Text.trim, String.toList_ofList] at hs
  unfold split
  rw [hs, Written.chars, Text.cut?_append hspace]
  dsimp only
  rw [Written.number, splitSign_signed hsign]
  dsimp only
  rw [splitDecimals_eq_ok_iff.2 ⟨rfl, hpoint⟩]
  simp [bind, Except.bind, hne, hwhole, hdecimals]

end Asset

end ContractBinding.Token
