
namespace QueryGlean.Graphql

inductive TokenKind
  | bang
  | dollar
  | amp
  | parenL
  | parenR
  | spread
  | colon
  | equals
  | at'
  | bracketL
  | bracketR
  | braceL
  | pipe
  | braceR
  | name
  | int
  | float
  | string
  | blockString
deriving DecidableEq, Repr, Inhabited

namespace TokenKind

def mark? : TokenKind → Option String
  | bang => some "!"
  | dollar => some "$"
  | amp => some "&"
  | parenL => some "("
  | parenR => some ")"
  | spread => some "..."
  | colon => some ":"
  | equals => some "="
  | at' => some "@"
  | bracketL => some "["
  | bracketR => some "]"
  | braceL => some "\x7b"
  | pipe => some "|"
  | braceR => some "\x7d"
  | _ => none

def ofChar? : Char → Option TokenKind
  | '!' => some bang
  | '$' => some dollar
  | '&' => some amp
  | '(' => some parenL
  | ')' => some parenR
  | ':' => some colon
  | '=' => some equals
  | '@' => some at'
  | '[' => some bracketL
  | ']' => some bracketR
  | '{' => some braceL
  | '|' => some pipe
  | '}' => some braceR
  | _ => none

theorem mark?_of_ofChar? {c : Char} {k : TokenKind} (h : ofChar? c = some k) :
    k.mark? = some (String.singleton c) := by
  unfold ofChar? at h
  split at h <;> first | (cases h; rfl) | cases h

def isPunctuator (k : TokenKind) : Bool :=
  k.mark?.isSome

def label (k : TokenKind) : String :=
  match k.mark?, k with
  | some m, _ => s!"'{m}'"
  | none, int => "Int"
  | none, float => "Float"
  | none, string => "String"
  | none, blockString => "BlockString"
  | none, _ => "Name"

end TokenKind

structure Lexeme where
  kind : TokenKind
  spelling : String
deriving DecidableEq, Repr, Inhabited

structure Token extends Lexeme where
  start : Nat
deriving DecidableEq, Repr, Inhabited

end QueryGlean.Graphql
