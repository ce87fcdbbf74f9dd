/-!
# Numbers in decimal digits

Natural numbers are written in ASCII digits, to a fixed width with zeros in front, and read
back from digits alone.
-/

namespace ContractBinding.Text

/-- The digits of a number. -/
def digitsOf (n : Nat) : List Char := Nat.toDigits 10 n

/-- The digits of a number with zeros in front, at least `width` of them in all. -/
def zeroPadded (width n : Nat) : List Char :=
  List.replicate (width - (digitsOf n).length) '0' ++ digitsOf n

/-- The number that digits spell; no digits spell zero. -/
def ofDigits (digits : List Char) : Nat := Nat.ofDigitChars 10 digits 0

/-- The number of a text that is made of digits only, of at least one. -/
def natural? (cs : List Char) : Option Nat :=
  if !cs.isEmpty && cs.all Char.isDigit then some (ofDigits cs) else none

/-- Written digits read back. -/
theorem ofDigits_digitsOf (n : Nat) : ofDigits (digitsOf n) = n :=
  Nat.ofDigitChars_toDigits (by decide) (by decide)

/-- Zeros in front do not count. -/
theorem ofDigits_zeroPadded (width n : Nat) : ofDigits (zeroPadded width n) = n := by
  have zeros (k : Nat) (cs : List Char) :
      ofDigits (List.replicate k '0' ++ cs) = ofDigits cs := by
    induction k with
    | zero => rfl
    | succ k ih => simpa [List.replicate_succ, ofDigits, Nat.ofDigitChars] using ih
  rw [zeroPadded, zeros, ofDigits_digitsOf]

end ContractBinding.Text
