import QueryGlean.Graphql.Token
import QueryGlean.Graphql.Quoted
import QueryGlean.Graphql.SyntaxError

namespace QueryGlean.Graphql

namespace Lexer

def isIgnored (c : Char) : Bool :=
  c == ' ' || c == '\t' || c == ',' || c == '\n' || c == '\r' || c == '\uFEFF'

def isBreak (c : Char) : Bool :=
  c == '\n' || c == '\r'

def isNameStart (c : Char) : Bool :=
  c.isAlpha || c == '_'

def isNamePart (c : Char) : Bool :=
  c.isAlphanum || c == '_'

def showChar? : Option Char → String
  | none => "<EOF>"
  | some c =>
    let n := c.toNat
    if 0x20 ≤ n ∧ n ≤ 0x7E then s!"'{c}'"
    else
      let digits := (Nat.toDigits 16 n).map Char.toUpper
      "U+" ++ String.ofList (List.replicate (4 - digits.length) '0' ++ digits)

abbrev Measure := Except (Fault × Nat) Nat

def digits (n : Nat) (cs : List Char) : Measure :=
  let ds := cs.takeWhile Char.isDigit
  if ds.isEmpty then .error (.digitExpected (showChar? cs.head?), n) else .ok (n + ds.length)

def wholePart (n : Nat) : List Char → Measure
  | '0' :: rest =>
    if rest.head?.any Char.isDigit then .error (.digitAfterZero (showChar? rest.head?), n + 1)
    else .ok (n + 1)
  | cs => digits n cs

def fractionPart (n : Nat) : List Char → Measure
  | '.' :: rest => digits (n + 1) rest
  | _ => .ok n

def signLength (isSign : Char → Bool) (cs : List Char) : Nat :=
  if cs.head?.any isSign then 1 else 0

def exponentPart (n : Nat) : List Char → Measure
  | e :: rest =>
    if e = 'e' ∨ e = 'E' then
      let sign := signLength (fun c => c == '+' || c == '-') rest
      digits (n + 1 + sign) (rest.drop sign)
    else .ok n
  | [] => .ok n

def number (cs : List Char) : Except (Fault × Nat) (Nat × Bool) := do
  let sign := signLength (· == '-') cs
  let whole ← wholePart sign (cs.drop sign)
  let fraction ← fractionPart whole (cs.drop whole)
  let stop ← exponentPart fraction (cs.drop fraction)
  match (cs.drop stop).head? with
  | some c =>
    if c = '.' ∨ isNameStart c then .error (.digitExpected (showChar? (some c)), stop)
    else .ok (stop, whole != stop)
  | none => .ok (stop, whole != stop)

def stringEnd : Nat → Nat → List Char → Measure
  | 0, n, _ => .error (.unterminatedString, n)
  | _, n, [] => .error (.unterminatedString, n)
  | fuel + 1, n, c :: cs =>
    if c = '"' then .ok (n + 1)
    else if isBreak c then .error (.unterminatedString, n)
    else if c = '\\' then
      match Quoted.escape? (c :: cs) with
      | .ok (_, k) => stringEnd fuel (n + k) ((c :: cs).drop k)
      | .error (.unicode s) => .error (.badUnicodeEscape s, n)
      | .error (.character s) => .error (.badEscape s, n)
    else stringEnd fuel (n + 1) cs

def blockEnd (n : Nat) : List Char → Measure
  | [] => .error (.unterminatedString, n)
  | '\\' :: '"' :: '"' :: '"' :: cs => blockEnd (n + 4) cs
  | '"' :: '"' :: '"' :: _ => .ok (n + 3)
  | _ :: cs => blockEnd (n + 1) cs

def measure (c : Char) (cs : List Char) : Except (Fault × Nat) (TokenKind × Nat) := do
  if let some k := TokenKind.ofChar? c then
    return (k, 1)
  if isNameStart c then
    return (.name, 1 + (cs.takeWhile isNamePart).length)
  if c = '-' ∨ c.isDigit then
    let (n, isFloat) ← number (c :: cs)
    return (if isFloat then .float else .int, n)
  if c = '"' then
    match cs with
    | '"' :: '"' :: rest => return (.blockString, ← blockEnd 3 rest)
    | _ => return (.string, ← stringEnd (cs.length + 1) 1 cs)
  match c, cs with
  | '.', '.' :: '.' :: _ => return (.spread, 3)
  | '.', '.' :: _ => throw (.doubleDot, 0)
  | '.', d :: rest =>
    if d.isDigit then
      throw (.leadingDot (String.ofList ((d :: rest).takeWhile Char.isDigit)), 0)
    else throw (.unexpectedCharacter (showChar? (some c)), 0)
  | _, _ =>
    throw (if c = '\'' then .singleQuote else .unexpectedCharacter (showChar? (some c)), 0)

end Lexer

structure TokenStream where
  tokens : List Token
  failure : Option SyntaxError
deriving Repr, Inhabited

namespace Lexer

-- Reads on from a place; `fuel` bounds the steps, and one more than the length of the text is
-- enough.
def scan : Nat → Nat → List Char → TokenStream
  | 0, _, _ => ⟨[], none⟩
  | _, _, [] => ⟨[], none⟩
  | fuel + 1, i, c :: cs =>
    if isIgnored c then scan fuel (i + 1) cs
    else if c = '#' then
      let comment := cs.takeWhile (! isBreak ·)
      scan fuel (i + 1 + comment.length) (cs.drop comment.length)
    else match measure c cs with
      | .error (fault, n) => ⟨[], some ⟨fault, i + n⟩⟩
      | .ok (kind, n) =>
        let rest := scan fuel (i + n) ((c :: cs).drop n)
        { rest with tokens := ⟨⟨kind, String.ofList ((c :: cs).take n)⟩, i⟩ :: rest.tokens }

end Lexer

def TokenStream.ofString (text : String) : TokenStream :=
  Lexer.scan (text.length + 1) 0 text.toList

def Lexeme.value (l : Lexeme) : String :=
  let inside (n : Nat) : List Char := (l.spelling.toList.drop n).take (l.spelling.length - 2 * n)
  match l.kind with
  | .string => Quoted.value (inside 1)
  | .blockString => BlockText.value (inside 3)
  | _ => l.spelling

def Lexeme.label (l : Lexeme) : String :=
  if l.kind.isPunctuator then l.kind.label else s!"{l.kind.label} '{l.value}'"

end QueryGlean.Graphql
