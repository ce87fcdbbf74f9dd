import ContractBinding.Decimal.Binary64

/-!
# The shortest decimal that reads back

Of the decimals that round to a given binary value, those with the fewest digits are the
shortest, and of these the nearest is chosen, a tie going to the even last digit. The search
takes the two neighbours of the value on the grid of 1, 2, … 17 digits and compares in exact
integer arithmetic.
-/

namespace ContractBinding.Decimal

/-- The digits of a positive decimal: the value is `0.d₁d₂…dₙ · 10 ^ point`. -/
structure Digits where
  digits : List Char
  point : Int
  deriving DecidableEq, Repr

/-- A positive multiple of a power of two, with the bounds of the values that round to it, all
three in quarters of the last place. -/
structure Target where
  lower : Nat
  value : Nat
  upper : Nat
  /-- The weight of one quarter, as a power of two. -/
  exponent : Int
  /-- Whether the bounds themselves round to the value. -/
  closed : Bool

namespace Target

/-- The value `significand · 2 ^ exponent` and its bounds; below a power of two the
neighbours are half as far apart. -/
def ofBinary (significand : Nat) (exponent : Int) : Target where
  lower :=
    if significand = 1 <<< 52 ∧ Binary64.minExponent < exponent then 4 * significand - 1
    else 4 * significand - 2
  value := 4 * significand
  upper := 4 * significand + 2
  exponent := exponent - 2
  closed := significand % 2 = 0

/-- `quarters · 2 ^ exponent` over `10 ^ power`, as a ratio. -/
def scaled (t : Target) (quarters : Nat) (power : Int) : Nat × Nat :=
  ((quarters <<< t.exponent.toNat) * Nat.pow 10 (-power).toNat,
    Nat.pow 10 power.toNat <<< (-t.exponent).toNat)

/-- Whether `coefficient · 10 ^ power` rounds to the value. -/
def admits (t : Target) (coefficient : Nat) (power : Int) : Bool :=
  let (low, den) := t.scaled t.lower power
  let (high, _) := t.scaled t.upper power
  if t.closed then low ≤ coefficient * den && coefficient * den ≤ high
  else low < coefficient * den && coefficient * den < high

/-- The `k` with `10 ^ (k - 1) ≤ value < 10 ^ k`. -/
def decimalPoint (t : Target) : Int :=
  let estimate := (t.value.log2 + t.exponent) * 30103 / 100000
  let reaches (k : Int) : Bool := let (num, den) := t.scaled t.value k; den ≤ num
  if reaches (estimate + 1) then estimate + 2 else if reaches estimate then estimate + 1
  else estimate

/-- The neighbour on the grid of `10 ^ power` that rounds to the value, the nearer of two. -/
def neighbour? (t : Target) (power : Int) : Option Nat :=
  let (num, den) := t.scaled t.value power
  let below := num / den
  match t.admits below power && below != 0, t.admits (below + 1) power with
  | true, true => some (divRoundEven num den)
  | true, false => some below
  | false, true => some (below + 1)
  | false, false => none

end Target

/-- Without the zeros at its end. -/
def dropTrailingZeros (digits : List Char) : List Char :=
  (digits.reverse.dropWhile (· = '0')).reverse

/-- The shortest decimal of a positive significand: the first grid with a hit wins. -/
def shortest (significand : Nat) (exponent : Int) : Digits :=
  let t := Target.ofBinary significand exponent
  let point := t.decimalPoint
  let hits := (List.range 17).filterMap fun (places : Nat) =>
    let power := point - (places + 1)
    (t.neighbour? power).map fun coefficient =>
      let text := Nat.toDigits 10 coefficient
      { digits := dropTrailingZeros text, point := text.length + power : Digits }
  hits.head?.getD { digits := ['0'], point := 1 }

end ContractBinding.Decimal
