import ContractBinding.Decimal.Shortest

/-!
# Writing a binary value in decimal

The digits are the shortest that read back. A layout says how far a value is written out
position by position, and whether a whole number shows a fraction.
-/

namespace ContractBinding.Decimal

/-- The decisions of a number format. -/
structure Layout where
  /-- Positional notation holds for decimal points from here, … -/
  leastPoint : Option Int
  /-- … up to here; outside, a power of ten follows the first digit. -/
  greatestPoint : Option Int
  /-- Whether a whole number ends in `.0`. -/
  showsFraction : Bool

namespace Layout

/-- Numbers in data: positional from `0.00001` to below `1e+16`, never without a fraction. -/
def data : Layout := ⟨some (-4), some 16, true⟩

/-- Numbers in prose: always positional, and no fraction where there is none. -/
def prose : Layout := ⟨none, none, false⟩

/-- Whether a decimal point is within the positional range. -/
def isPositional (l : Layout) (point : Int) : Bool :=
  l.leastPoint.all (· ≤ point) && l.greatestPoint.all (point ≤ ·)

/-- The digits written out around the decimal point. -/
def positional (l : Layout) (d : Digits) : List Char :=
  if d.point ≤ 0 then '0' :: '.' :: List.replicate (-d.point).toNat '0' ++ d.digits
  else
    let whole := d.digits.take d.point.toNat
    let fraction := d.digits.drop d.point.toNat
    let padded := whole ++ List.replicate (d.point.toNat - whole.length) '0'
    if fraction.isEmpty then (if l.showsFraction then padded ++ ['.', '0'] else padded)
    else padded ++ '.' :: fraction

/-- One digit before the point and a signed power of ten. -/
def scientific (d : Digits) : List Char :=
  let power := d.point - 1
  let sign := if power < 0 then '-' else '+'
  let fraction := d.digits.drop 1
  d.digits.take 1 ++ (if fraction.isEmpty then [] else '.' :: fraction) ++
    'e' :: sign :: Nat.toDigits 10 power.natAbs

/-- The text of a value. -/
def text (l : Layout) : Binary64 → String
  | .infinite negative => if negative then "-inf" else "inf"
  | .finite negative 0 _ =>
    (if negative then "-" else "") ++ (if l.showsFraction then "0.0" else "0")
  | .finite negative significand exponent =>
    let d := shortest significand exponent
    let cs := if l.isPositional d.point then l.positional d else scientific d
    (if negative then "-" else "") ++ String.ofList cs

end Layout

end ContractBinding.Decimal
