import ContractBinding.Json.Basic
import ContractBinding.Text.Cut
import ContractBinding.Text.Digits
import ContractBinding.Text.Quoted

/-!
# Token symbols

A symbol is a code of one to seven upper-case letters and the number of decimals of its
amounts, eighteen at most.
-/

namespace ContractBinding.Token

/-- Why a text is no symbol or no amount. -/
inductive TextFault where
  | noSymbol
  | noDecimals
  | notDecimal
  | tooManyDecimals
  | noComma
  | badPrecision
  deriving DecidableEq, Repr

/-- The reason in words. -/
def TextFault.message : TextFault → String
  | .noSymbol => "expected `<amount> <symbol>`"
  | .noDecimals => "missing decimals after `.`"
  | .notDecimal => "amount is not a decimal number"
  | .tooManyDecimals => "too many decimals"
  | .noComma => "expected `<precision>,<code>`"
  | .badPrecision => "precision is not a small integer"

/-- What can be wrong with token amounts. -/
inductive AssetFault where
  | malformed (input : String) (fault : TextFault)
  | invalidSymbol (code : String)
  | precision (decimals : Nat)
  | differingSymbol (left right : String)
  | differingPrecision (left right : String)
  | overflow
  deriving DecidableEq, Repr

/-- The fault in words. -/
def AssetFault.message : AssetFault → String
  | .malformed input fault => "malformed asset " ++ Text.quoted input ++ ": " ++ fault.message
  | .invalidSymbol code =>
    "invalid symbol " ++ Text.quoted code ++ ": expected 1-7 uppercase letters"
  | .precision decimals =>
    "precision " ++ toString decimals ++ " exceeds the maximum of 18"
  | .differingSymbol left right =>
    "differing symbol: cannot combine " ++ left ++ " with " ++ right
  | .differingPrecision left right =>
    "differing precision: cannot combine " ++ left ++ " with " ++ right
  | .overflow => "asset amount overflow"

/-- The greatest number of decimals. -/
def maxPrecision : Nat := 18

/-- One to seven upper-case letters. -/
def isCode (code : List Char) : Bool :=
  !code.isEmpty && code.length ≤ 7 && code.all Char.isUpper

/-- A token symbol. -/
structure Symbol where
  precision : Nat
  code : String
  precision_le : precision ≤ maxPrecision
  isCode_code : isCode code.toList = true
  deriving DecidableEq, Repr

namespace Symbol

/-- The symbol of a precision and a code. -/
def make (precision : Nat) (code : String) : Except AssetFault Symbol :=
  if hp : precision ≤ maxPrecision then
    if hc : isCode code.toList = true then .ok ⟨precision, code, hp, hc⟩
    else .error (.invalidSymbol code)
  else .error (.precision precision)

/-- The units of one whole token. -/
def scale (s : Symbol) : Nat := Nat.pow 10 s.precision

/-- The text of a symbol: `4,EOS`. -/
def text (s : Symbol) : String := toString s.precision ++ "," ++ s.code

/-- A precision is written in digits, with or without a plus sign, and is less than 256. -/
def readPrecision? (cs : List Char) : Option Nat :=
  let digits := match cs with
    | '+' :: rest => rest
    | _ => cs
  (Text.natural? digits).filter (· ≤ 255)

/-- Read the text of a symbol. -/
def parse (s : String) : Except AssetFault Symbol :=
  match Text.cut? ',' s.toList with
  | none => .error (.malformed s .noComma)
  | some (precision, code) =>
    match readPrecision? precision with
    | none => .error (.malformed s .badPrecision)
    | some precision => make precision (String.ofList code)

end Symbol

end ContractBinding.Token
