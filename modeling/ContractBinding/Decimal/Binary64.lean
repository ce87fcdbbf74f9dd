/-!
# Binary floating point with 53 significant bits

A finite value is a sign, a significand below `2 ^ 53` and a power of two from `2 ^ (-1074)`
to `2 ^ 971`. Every operation takes the exact rational result and rounds it once, to the
nearest value, a tie to the even significand; what is too large becomes infinite.
-/

namespace ContractBinding.Decimal

/-- A signed binary floating-point value; zeros are signed too. -/
inductive Binary64 where
  | finite (negative : Bool) (significand : Nat) (exponent : Int)
  | infinite (negative : Bool)
  deriving DecidableEq, Repr

/-- `num / den` rounded to the nearest integer, a tie to the even one. -/
def divRoundEven (num den : Nat) : Nat :=
  let q := num / den
  let twice := 2 * (num % den)
  if twice < den then q else if den < twice then q + 1 else if q % 2 = 0 then q else q + 1

/-- The greatest `e` with `2 ^ e ≤ num / den`, both positive. -/
def binaryMagnitude (num den : Nat) : Int :=
  let e := (num.log2 : Int) - den.log2
  if num <<< (-e).toNat < den <<< e.toNat then e - 1 else e

namespace Binary64

/-- The least power of two. -/
def minExponent : Int := -1074

/-- The greatest power of two. -/
def maxExponent : Int := 971

def zero (negative : Bool) : Binary64 := .finite negative 0 minExponent

/-- The value nearest to `num / den`. -/
def ofRatio (negative : Bool) (num den : Nat) : Binary64 :=
  if num = 0 then zero negative
  else
    let exponent := max minExponent (binaryMagnitude num den - 52)
    let significand := divRoundEven (num <<< (-exponent).toNat) (den <<< exponent.toNat)
    let (significand, exponent) :=
      if significand = 1 <<< 53 then (1 <<< 52, exponent + 1) else (significand, exponent)
    if maxExponent < exponent then .infinite negative
    else .finite negative significand exponent

/-- The value nearest to an integer. -/
def ofInt (n : Int) : Binary64 := ofRatio (n < 0) n.natAbs 1

def isInfinite : Binary64 → Bool
  | .infinite _ => true
  | .finite .. => false

/-- The product; a factor without bound makes it unbounded. -/
def mul : Binary64 → Binary64 → Binary64
  | .finite s m q, .finite s' m' q' =>
    ofRatio (s != s') ((m * m') <<< (q + q').toNat) (1 <<< (-(q + q')).toNat)
  | .finite s _ _, .infinite s' | .infinite s, .finite s' _ _ | .infinite s, .infinite s' =>
    .infinite (s != s')

/-- The quotient by a finite value other than zero. -/
def div : Binary64 → Binary64 → Binary64
  | .finite s m q, .finite s' m' q' =>
    ofRatio (s != s') (m <<< (q - q').toNat) (m' <<< (q' - q).toNat)
  | .finite s _ _, .infinite s' => zero (s != s')
  | .infinite s, .finite s' _ _ | .infinite s, .infinite s' => .infinite (s != s')

end Binary64

end ContractBinding.Decimal
