/-!
# Glob patterns

A pattern selects relative paths. `?` and `*` stand for a byte and for any bytes, slashes among
them; `**` between slashes stands for any directories; brackets stand for one of some
characters, braces for one of some patterns; a backslash takes the next character as it is.
-/

namespace ContractBinding.Glob

/-- A part of a pattern. -/
inductive Token where
  | literal (c : Char)
  /-- `?` -/
  | anyByte
  /-- `*` -/
  | anyBytes
  /-- `**` and a slash at the start: nothing, or anything up to a slash. -/
  | leading
  /-- A slash and `**` at the end: a slash and anything after it. -/
  | inside
  /-- `**` between two slashes: one slash, or anything between two. -/
  | between
  /-- Brackets. -/
  | oneOf (negated : Bool) (ranges : List (Char × Char))
  /-- Braces. -/
  | either (branches : List (List Token))

/-- Why a text is no pattern. -/
inductive Fault where
  | openBrackets
  | emptyRange (low high : Char)
  | openBraces
  | strayBrace
  | danglingBackslash
  deriving DecidableEq, Repr

/-- The fault in words. -/
def Fault.message : Fault → String
  | .openBrackets => "brackets are not closed"
  | .emptyRange .. => "a range ends before it begins"
  | .openBraces => "braces are not closed"
  | .strayBrace => "a brace is closed that was not opened"
  | .danglingBackslash => "a backslash stands at the end"

/-- A character with its role, or whole brackets. -/
inductive Lexeme where
  | plain (c : Char)
  | escaped (c : Char)
  | brackets (negated : Bool) (ranges : List (Char × Char))
  deriving DecidableEq, Repr

/-- The last character of a lexeme. -/
def Lexeme.last : Lexeme → Char
  | .plain c | .escaped c => c
  | .brackets .. => ']'

/-- Brackets that have been opened. -/
structure OpenBrackets where
  negated : Bool
  /-- In reverse. -/
  ranges : List (Char × Char) := []
  /-- Whether the last character was a hyphen that may make a range. -/
  inRange : Bool := false

namespace OpenBrackets

/-- One more character; after a hyphen it is the end of a range. -/
def add (b : OpenBrackets) (c : Char) : Except Fault OpenBrackets :=
  match b.inRange, b.ranges with
  | true, (low, _) :: earlier =>
    if c < low then .error (.emptyRange low c)
    else .ok { b with ranges := (low, c) :: earlier, inRange := false }
  | _, ranges => .ok { b with ranges := (c, c) :: ranges, inRange := false }

/-- The brackets once they are closed; a hyphen at the end is a character. -/
def close (b : OpenBrackets) : Lexeme :=
  .brackets b.negated (if b.inRange then ('-', '-') :: b.ranges else b.ranges).reverse

end OpenBrackets

/-- The lexemes of a pattern. A closing bracket or a hyphen right after the opening is a
character. -/
def scan : Option OpenBrackets → List Char → Except Fault (List Lexeme)
  | none, [] => .ok []
  | some _, [] => .error .openBrackets
  | none, '\\' :: c :: rest => do return .escaped c :: (← scan none rest)
  | none, ['\\'] => .error .danglingBackslash
  | none, '[' :: '!' :: rest => scan (some { negated := true }) rest
  | none, '[' :: '^' :: rest => scan (some { negated := true }) rest
  | none, '[' :: rest => scan (some { negated := false }) rest
  | none, c :: rest => do return .plain c :: (← scan none rest)
  | some b, c :: rest => do
    if c = ']' && !b.ranges.isEmpty then return b.close :: (← scan none rest)
    else if c = '-' && !b.ranges.isEmpty && !b.inRange then
      scan (some { b with inRange := true }) rest
    else scan (some (← b.add c)) rest

/-- Braces that have been opened. -/
structure OpenBraces where
  /-- What stands before them, in reverse. -/
  before : List Token
  /-- The branches that are complete, in reverse. -/
  branches : List (List Token)

/-- Whether `**` may stand for directories after this character. -/
def opensDirectories (previous : Option Char) (braces : List OpenBraces) : Bool :=
  previous = some '/' ||
    (!braces.isEmpty && (previous = some ',' || previous = some '{'))

/-- Put a token for directories in place of the slash before it; after another such token there
is no need for one. -/
def replaceSlash (token : Token) : List Token → List Token
  | .leading :: earlier => .leading :: earlier
  | .inside :: earlier => .inside :: earlier
  | _ :: earlier => token :: earlier
  | [] => [token]

/-- The tokens after `**`, in reverse, where it stands for directories: at the start of a branch
before a slash or the end, or after a slash before a slash or the end. -/
def directories? (previous : Option Char) (braces : List OpenBraces) (tokens : List Token)
    (next : Option Lexeme) : Option (List Token) :=
  if tokens.isEmpty then
    if next = none || next = some (.plain '/') then some [.leading] else none
  else if !opensDirectories previous braces then none
  else match next with
    | none => some (replaceSlash .inside tokens)
    | some (.plain '/') => some (replaceSlash .between tokens)
    | some (.plain c) =>
      if !braces.isEmpty && (c = ',' || c = '}') then some (replaceSlash .inside tokens) else none
    | _ => none

/-- The tokens of the lexemes that are left, after those of the innermost branch so far, which
are in reverse. -/
def build (previous : Option Char) (braces : List OpenBraces) (tokens : List Token) :
    List Lexeme → Except Fault (List Token)
  | [] => if braces.isEmpty then .ok tokens.reverse else .error .openBraces
  | .plain '*' :: .plain '*' :: rest =>
    match directories? previous braces tokens rest.head? with
    | none => build (some '*') braces (.anyBytes :: .anyBytes :: tokens) rest
    | some tokens =>
      match rest with
      | .plain '/' :: rest => build (some '/') braces tokens rest
      | rest => build (some '*') braces tokens rest
  | .plain '*' :: rest => build (some '*') braces (.anyBytes :: tokens) rest
  | .plain '?' :: rest => build (some '?') braces (.anyByte :: tokens) rest
  | .plain '{' :: rest => build (some '{') (⟨tokens, []⟩ :: braces) [] rest
  | .plain '}' :: rest =>
    match braces with
    | [] => .error .strayBrace
    | b :: outer =>
      build (some '}') outer (.either (tokens.reverse :: b.branches).reverse :: b.before) rest
  | .plain ',' :: rest =>
    match braces with
    | [] => build (some ',') [] (.literal ',' :: tokens) rest
    | b :: outer =>
      build (some ',') ({ b with branches := tokens.reverse :: b.branches } :: outer) [] rest
  | .brackets negated ranges :: rest =>
    build (some ']') braces (.oneOf negated ranges :: tokens) rest
  | .plain c :: rest => build (some c) braces (.literal c :: tokens) rest
  | .escaped c :: rest => build (some c) braces (.literal c :: tokens) rest

/-- A pattern. -/
structure Pattern where
  tokens : List Token

/-- Read the text of a pattern. -/
def Pattern.parse (text : String) : Except Fault Pattern := do
  return ⟨← build none [] [] (← scan none text.toList)⟩

end ContractBinding.Glob
