import ContractBinding.Decimal.Binary64

/-!
# Reading a decimal literal

A literal is a whole part, an optional fraction and an optional power of ten. A whole number
of 64 bits is read as that integer. Any other literal is read in two roundings: its leading
digits, as many as fit 64 bits, become a binary value, and that value is multiplied or divided
by the binary value of a power of ten.
-/

namespace ContractBinding.Decimal

/-- A number as data holds it: a whole number of 64 bits, signed or not, or a binary value. -/
inductive Number where
  | int (value : Int)
  | double (value : Binary64)
  deriving DecidableEq, Repr

/-- The least and greatest whole numbers. -/
def leastInt : Int := -0x8000000000000000

def greatestInt : Int := 0xFFFFFFFFFFFFFFFF

/-- The greatest significand. -/
def significandLimit : Nat := 0xFFFFFFFFFFFFFFFF

/-- The value of a digit. -/
def digitValue (c : Char) : Nat := c.toNat - '0'.toNat

/-- The leading digits of a literal as one number, and the power of ten it is scaled by. -/
structure Significand where
  value : Nat
  power : Int

namespace Significand

/-- Take the digits of the whole part; from the first that no longer fits, each one left out
raises the power of ten. -/
def takeWhole (digits : List Char) : Significand :=
  digits.foldl (fun s c =>
    let longer := s.value * 10 + digitValue c
    if s.power = 0 ∧ longer ≤ significandLimit then ⟨longer, 0⟩
    else ⟨s.value, s.power + 1⟩) ⟨0, 0⟩

/-- Take the digits of the fraction up to the first that no longer fits. -/
def takeFraction (s : Significand) : List Char → Significand
  | [] => s
  | c :: rest =>
    let longer := s.value * 10 + digitValue c
    if longer ≤ significandLimit then takeFraction ⟨longer, s.power - 1⟩ rest else s

/-- The greatest power of ten that has a binary value. -/
def powerLimit : Int := 308

private def powerOfTen (power : Nat) : Binary64 := Binary64.ofRatio false (Nat.pow 10 power) 1

/-- The binary value of a scaled significand; infinite where it is too large. -/
def toBinary (s : Significand) (negative : Bool) : Binary64 :=
  let value := Binary64.ofRatio negative s.value 1
  if s.value = 0 then .zero negative
  else if powerLimit < s.power then .infinite negative
  else if 0 ≤ s.power then value.mul (powerOfTen s.power.toNat)
  else if -powerLimit ≤ s.power then value.div (powerOfTen (-s.power).toNat)
  else if -2 * powerLimit ≤ s.power then
    (value.div (powerOfTen powerLimit.toNat)).div (powerOfTen (-s.power - powerLimit).toNat)
  else .zero negative

end Significand

/-- The parts of a literal. -/
structure Literal where
  negative : Bool
  whole : List Char
  fraction : List Char
  /-- The written power of ten. -/
  power : Int
  /-- Whether the literal has neither a fraction nor a power of ten. -/
  isWhole : Bool

namespace Literal

/-- A whole part: `0`, or digits that do not start with one. -/
def isWholePart : List Char → Bool
  | [] => false
  | ['0'] => true
  | cs@(c :: _) => c != '0' && cs.all Char.isDigit

/-- The power of ten of `e5`, `E+5` or `e-5`, zero where there is none. -/
def readPower? : List Char → Option Int
  | [] => some 0
  | e :: rest =>
    if e = 'e' ∨ e = 'E' then
      let (negative, digits) := match rest with
        | '+' :: digits => (false, digits)
        | '-' :: digits => (true, digits)
        | digits => (false, digits)
      if digits.isEmpty || !digits.all Char.isDigit then none
      else
        let power : Int := Nat.ofDigitChars 10 digits 0
        some (if negative then -power else power)
    else none

/-- Read a literal: `-`, whole part, `.` and fraction, power of ten; only the whole part is
always there. -/
def read? (cs : List Char) : Option Literal :=
  let (negative, unsigned) := match cs with
    | '-' :: rest => (true, rest)
    | _ => (false, cs)
  let whole := unsigned.takeWhile Char.isDigit
  let tail := unsigned.dropWhile Char.isDigit
  if !isWholePart whole then none
  else match tail with
    | '.' :: decimals =>
      let fraction := decimals.takeWhile Char.isDigit
      if fraction.isEmpty then none
      else (readPower? (decimals.dropWhile Char.isDigit)).map fun power =>
        ⟨negative, whole, fraction, power, false⟩
    | _ => (readPower? tail).map fun power => ⟨negative, whole, [], power, tail.isEmpty⟩

/-- The number a literal denotes. A negative zero is a binary value, since integers have
none. -/
def number (l : Literal) : Number :=
  let magnitude : Int := Nat.ofDigitChars 10 l.whole 0
  let value := if l.negative then -magnitude else magnitude
  if l.isWhole ∧ leastInt ≤ value ∧ value ≤ greatestInt ∧ ¬(l.negative ∧ magnitude = 0) then
    .int value
  else
    let s := (Significand.takeWhole l.whole).takeFraction l.fraction
    .double ({ s with power := s.power + l.power : Significand }.toBinary l.negative)

end Literal

end ContractBinding.Decimal
