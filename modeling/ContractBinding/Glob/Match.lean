import ContractBinding.Glob.Pattern

/-!
# Matching paths

A pattern matches a path when its tokens, one after the other, take up all bytes of the path.
A token takes up a beginning of what is left in one way or several, so matching keeps the list of
all rests that the tokens so far can leave.
-/

namespace ContractBinding.Glob

/-- The bytes of a path that are left. -/
abbrev Rest := List UInt8

/-- A slash. -/
def slash : UInt8 := 47

/-- Everything that can be left when anything is taken up. -/
def anyRest : Rest → List Rest
  | [] => [[]]
  | b :: rest => (b :: rest) :: anyRest rest

/-- Everything that can be left when something up to a slash is taken up. -/
def restsAfterSlash (rest : Rest) : List Rest :=
  (anyRest rest).filterMap fun
    | b :: rest => if b = slash then some rest else none
    | [] => none

/-- What is left after some bytes. -/
def restAfter : List UInt8 → Rest → List Rest
  | [], rest => [rest]
  | b :: bytes, c :: rest => if b = c then restAfter bytes rest else []
  | _ :: _, [] => []

/-- The bytes of a character. -/
def bytesOf (c : Char) : List UInt8 := c.toString.toUTF8.toList

/-- The ranges of bytes that a range of characters stands for in brackets: brackets match single
bytes, so only the bytes next to the hyphen make a range. -/
def byteRanges (range : Char × Char) : List (UInt8 × UInt8) :=
  let single := fun b : UInt8 => (b, b)
  let low := bytesOf range.1
  let high := bytesOf range.2
  if range.1 = range.2 then low.map single
  else
    low.dropLast.map single ++ (low.getLast?.getD 0, high.head?.getD 0) ::
      (high.drop 1).map single

/-- Whether brackets match a byte. -/
def matchesByte (negated : Bool) (ranges : List (Char × Char)) (b : UInt8) : Bool :=
  let inside := (ranges.flatMap byteRanges).any fun (low, high) => low ≤ b && b ≤ high
  inside != negated

mutual

/-- Whether a token says nothing: braces around nothing. -/
def Token.isBlank : Token → Bool
  | .either branches => areBlank branches
  | _ => false

/-- Whether all tokens say nothing. -/
def isBlank : List Token → Bool
  | [] => true
  | token :: rest => token.isBlank && isBlank rest

/-- Whether all branches say nothing. -/
def areBlank : List (List Token) → Bool
  | [] => true
  | branch :: rest => isBlank branch && areBlank rest

end

mutual

/-- What a token leaves of some rests. Branches of braces that say nothing do not count. -/
def Token.leave : Token → List Rest → List Rest
  | .literal c, rests => rests.flatMap (restAfter (bytesOf c))
  | .anyByte, rests => rests.filterMap List.tail?
  | .anyBytes, rests => rests.flatMap anyRest
  | .leading, rests => rests.flatMap fun rest => rest :: restsAfterSlash rest
  | .inside, rests => (rests.flatMap (restAfter [slash])).flatMap anyRest
  | .between, rests =>
    (rests.flatMap (restAfter [slash])).flatMap fun rest => rest :: restsAfterSlash rest
  | .oneOf negated ranges, rests =>
    rests.filterMap fun
      | b :: rest => if matchesByte negated ranges b then some rest else none
      | [] => none
  | .either branches, rests =>
    if areBlank branches then rests else leaveEither branches rests

/-- What tokens in order leave of some rests. -/
def leaveAll : List Token → List Rest → List Rest
  | [], rests => rests
  | token :: tokens, rests => leaveAll tokens (token.leave rests).eraseDups

/-- What one of some branches leaves of some rests. -/
def leaveEither : List (List Token) → List Rest → List Rest
  | [], _ => []
  | branch :: branches, rests =>
    (if isBlank branch then [] else leaveAll branch rests) ++ leaveEither branches rests

end

/-- Whether a pattern matches a path. `**` alone matches everything. -/
def Pattern.matches (p : Pattern) (path : String) : Bool :=
  match p.tokens with
  | [.leading] => true
  | tokens => (leaveAll tokens [path.toUTF8.toList]).any List.isEmpty

/-- Whether one of some patterns matches a path. -/
def anyMatches (patterns : List Pattern) (path : String) : Bool :=
  patterns.any fun p => p.matches path

end ContractBinding.Glob
