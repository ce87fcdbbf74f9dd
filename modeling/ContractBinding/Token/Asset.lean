import ContractBinding.Text.Blank
import ContractBinding.Token.Symbol

/-!
# Token amounts

An amount is a whole number of the smallest units of its symbol, of 64 bits with a sign, so that
its text comes back unchanged however often it is read and written. Arithmetic is exact or
refused.
-/

namespace ContractBinding.Token

/-- The least number of units. -/
def leastUnits : Int := -0x8000000000000000

/-- The greatest number of units. -/
def greatestUnits : Int := 0x7FFFFFFFFFFFFFFF

/-- What becomes of an operation whose exact result is beyond 64 bits. -/
def Overrun : Type := Int → Except AssetFault Int

/-- A checked operation is refused. -/
def Overrun.refuse : Overrun := fun _ => .error .overflow

/-- Any other goes on with what is left of the result in 64 bits. -/
def Overrun.wrap : Overrun := fun exact => .ok (exact.bmod 0x10000000000000000)

/-- The result of an operation on units: the exact one, if it has 64 bits. -/
def settle (overrun : Overrun) (exact : Int) : Except AssetFault Int :=
  if leastUnits ≤ exact ∧ exact ≤ greatestUnits then .ok exact else overrun exact

/-- An amount of a token. -/
structure Asset where
  /-- In units of the symbol's last decimal. -/
  units : Int
  symbol : Symbol
  leastUnits_le : leastUnits ≤ units
  le_greatestUnits : units ≤ greatestUnits
  deriving DecidableEq, Repr

namespace Asset

/-- The amount of a number of units; one beyond 64 bits overflows. -/
def ofUnits (units : Int) (symbol : Symbol) : Except AssetFault Asset :=
  if h : leastUnits ≤ units ∧ units ≤ greatestUnits then .ok ⟨units, symbol, h.1, h.2⟩
  else .error .overflow

/-- The characters of an amount: sign, whole tokens, decimals, code. -/
def chars (a : Asset) : List Char :=
  let sign := if a.units < 0 then ['-'] else []
  let whole := Text.digitsOf (a.units.natAbs / a.symbol.scale)
  let decimals :=
    if a.symbol.precision = 0 then []
    else '.' :: Text.zeroPadded a.symbol.precision (a.units.natAbs % a.symbol.scale)
  sign ++ whole ++ decimals ++ ' ' :: a.symbol.code.toList

/-- The text of an amount: `10.0000 EOS`. -/
def text (a : Asset) : String := String.ofList a.chars

/-- The sign and the rest of a number. -/
def splitSign : List Char → Bool × List Char
  | '-' :: rest => (true, rest)
  | cs => (false, cs)

/-- The whole part and the decimals of a number; a point needs decimals after it. -/
def splitDecimals (digits : List Char) : Except TextFault (List Char × List Char) :=
  match Text.cut? '.' digits with
  | none => .ok (digits, [])
  | some (whole, decimals) => if decimals.isEmpty then .error .noDecimals
    else .ok (whole, decimals)

/-- The sign, the whole part, the decimals and the code of a text. -/
def split (s : String) : Except TextFault (Bool × List Char × List Char × List Char) :=
  match Text.cut? ' ' (Text.trimChars s.toList) with
  | none => .error .noSymbol
  | some (number, code) => do
    let (negative, digits) := splitSign number
    let (whole, decimals) ← splitDecimals digits
    if whole.isEmpty || !whole.all Char.isDigit || !decimals.all Char.isDigit then
      .error .notDecimal
    else if 255 < decimals.length then .error .tooManyDecimals
    else .ok (negative, whole, decimals, code)

/-- The units that the digits of a number spell. Reading digits, the product with the scale and the
sum are checked; the power that is the scale and the change of sign are not. -/
def unitsOf (overrun : Overrun) (symbol : Symbol) (negative : Bool) (whole decimals : List Char) :
    Except AssetFault Int := do
  let whole ← settle .refuse (Text.ofDigits whole)
  let decimals ← settle .refuse (Text.ofDigits decimals)
  let scale ← settle overrun symbol.scale
  let product ← settle .refuse (whole * scale)
  let magnitude ← settle .refuse (product + decimals)
  if negative then settle overrun (-magnitude) else .ok magnitude

/-- Read the text of an amount, where operations that are not checked overrun in a given way. -/
def parseWith (overrun : Overrun) (s : String) : Except AssetFault Asset := do
  let (negative, whole, decimals, code) ← (split s).mapError (.malformed s)
  let symbol ← Symbol.make decimals.length (String.ofList code)
  let units ← unitsOf overrun symbol negative whole decimals
  ofUnits units symbol

/-- Read the text of an amount; the decimals written are the precision. -/
def parse (s : String) : Except AssetFault Asset := parseWith .wrap s

/-- Two amounts combine when their symbols agree in code and precision. -/
def checkSame (a b : Asset) : Except AssetFault Unit :=
  if a.symbol.code ≠ b.symbol.code then .error (.differingSymbol a.text b.text)
  else if a.symbol.precision ≠ b.symbol.precision then
    .error (.differingPrecision a.text b.text)
  else .ok ()

/-- The exact sum. -/
def add (a b : Asset) : Except AssetFault Asset := do
  checkSame a b
  ofUnits (a.units + b.units) a.symbol

/-- The exact difference. -/
def sub (a b : Asset) : Except AssetFault Asset := do
  checkSame a b
  ofUnits (a.units - b.units) a.symbol

/-- The amount in whole tokens, rounded to a binary value: first the units, then the
quotient. -/
def amount (a : Asset) : Decimal.Binary64 :=
  (Decimal.Binary64.ofInt a.units).div (Decimal.Binary64.ofInt a.symbol.scale)

end Asset

end ContractBinding.Token
