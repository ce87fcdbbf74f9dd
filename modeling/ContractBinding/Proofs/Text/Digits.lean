import ContractBinding.Text.Digits
import Mathlib.Algebra.Group.Nat.Defs
import Mathlib.Data.List.Basic

/-!
# Digits of written numbers

Written numbers are made of digits, keep to their width where they fit, and read back. What is
no digit does not occur in them.
-/

namespace ContractBinding.Text

variable {n width : Nat} {cs : List Char}

/-- Where the digits stand among the characters. -/
theorem toNat_of_isDigit {c : Char} (h : c.isDigit = true) : 48 ≤ c.toNat ∧ c.toNat ≤ 57 := by
  simpa [Char.isDigit, UInt32.le_iff_toNat_le] using h

/-- A number is written in digits. -/
theorem isDigit_of_mem_digitsOf {c : Char} (h : c ∈ digitsOf n) : c.isDigit = true :=
  Nat.isDigit_of_mem_toDigits (by decide) (by decide) h

/-- A number is written in digits also where zeros stand in front. -/
theorem isDigit_of_mem_zeroPadded {c : Char} (h : c ∈ zeroPadded width n) : c.isDigit = true := by
  rcases List.mem_append.1 h with h | h
  · rw [List.eq_of_mem_replicate h]
    rfl
  · exact isDigit_of_mem_digitsOf h

/-- What is no digit does not stand among digits. -/
theorem not_mem_of_isDigit {c : Char} (hc : c.isDigit = false)
    (h : ∀ d ∈ cs, d.isDigit = true) : c ∉ cs := by
  intro hm
  simp [h c hm] at hc

/-- A number that fits keeps to its width. -/
theorem length_zeroPadded (hw : 0 < width) (h : n < 10 ^ width) :
    (zeroPadded width n).length = width := by
  have hle := (Nat.length_toDigits_le_iff (by decide : 1 < 10) hw).2 h
  rw [zeroPadded, List.length_append, List.length_replicate, digitsOf]
  omega

/-- A written number is not empty. -/
theorem zeroPadded_ne_nil : zeroPadded width n ≠ [] := by
  unfold zeroPadded digitsOf
  simp

/-- A written number reads back. -/
theorem natural?_zeroPadded : natural? (zeroPadded width n) = some n := by
  have hdigits : (zeroPadded width n).all Char.isDigit = true :=
    List.all_eq_true.2 fun _ => isDigit_of_mem_zeroPadded
  have hne : (zeroPadded width n).isEmpty = false := by
    rw [List.isEmpty_eq_false_iff]
    exact zeroPadded_ne_nil
  rw [natural?, hdigits, hne, ofDigits_zeroPadded]
  rfl

/-- Digits spell a number of no more digits. -/
theorem ofDigits_lt (h : ∀ c ∈ cs, c.isDigit = true) : ofDigits cs < 10 ^ cs.length := by
  induction cs with
  | nil => decide
  | cons c rest ih =>
    have hc : c.toNat - '0'.toNat < 10 := by
      have hbounds := toNat_of_isDigit (h c (List.mem_cons_self ..))
      have hzero : '0'.toNat = 48 := rfl
      omega
    have hrest := ih fun d hd => h d (List.mem_cons_of_mem _ hd)
    have hstep := Nat.mul_le_mul_left (10 ^ rest.length) (Nat.succ_le_of_lt hc)
    unfold ofDigits at hrest ⊢
    rw [Nat.ofDigitChars_cons, Nat.ofDigitChars_eq_ofDigitChars_zero, List.length_cons,
      Nat.pow_succ, Nat.mul_zero, Nat.zero_add]
    rw [Nat.mul_succ] at hstep
    omega

/-- A number that digits spell fits in their number. -/
theorem natural?_lt (h : natural? cs = some n) : n < 10 ^ cs.length := by
  unfold natural? at h
  split at h
  · next hdigits =>
    cases h
    exact ofDigits_lt (List.all_eq_true.1 (Bool.and_eq_true_iff.1 hdigits).2)
  · simp at h

end ContractBinding.Text
