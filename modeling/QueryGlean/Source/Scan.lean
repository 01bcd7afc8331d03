import QueryGlean.Source.Insertion
import QueryGlean.Source.Automaton.Productions

namespace QueryGlean

structure Lexeme where
  token : Nat
  start : Nat
  stop : Nat
  -- Whether it is a word that some rule has as a keyword.
  isKeyword : Bool := false
deriving Repr, Inhabited

structure Lexicon where
  isTyped : Bool
  numbering : Numbering
  reserved : TokenSet
  keywords : Std.HashMap String Nat
  -- Names and keywords.
  words : TokenSet
  -- Punctuation, the longest first.
  marks : List (Nat × Token)
  -- All else that may have space in front, but names.
  patterns : List (Nat × Token)
  adjoining : List (Nat × Token)
  urgent : List (Nat × Token)
deriving Inhabited

namespace Lexicon

def length : Token → Nat
  | .literal s => s.length
  | _ => 0

def isLiteral : Token → Bool
  | .literal _ => true
  | _ => false

def ofProductions (isTyped : Bool) (p : Productions) : Lexicon :=
  let all := p.numbering.tokens.toList.zipIdx.map fun (t, i) => (i, t)
  let standing (s : Token.Standing) := all.filter (·.2.standing = s)
  let spaced := standing .spaced
  let keywords := all.filterMap fun (i, t) =>
    match t with
    | .literal s => if t.isKeyword then some (s, i) else none
    | _ => none
  { isTyped
    numbering := p.numbering
    reserved := p.reserved
    keywords := Std.HashMap.ofList keywords
    words := TokenSet.ofList (p.numbering.token .name :: keywords.map (·.2))
    marks := (spaced.filter fun (_, t) => isLiteral t && !t.isKeyword).mergeSort fun a b =>
      length b.2 ≤ length a.2
    patterns := spaced.filter fun (_, t) => !isLiteral t && t ≠ .name
    adjoining := standing .adjoining
    urgent := standing .urgent }

variable (x : Lexicon) (expected : TokenSet) (cs : Array Char) (i : Nat)

def expects (t : Token) : Bool :=
  expected.contains (x.numbering.token t)

def lexeme (t : Token) (start stop : Nat) : Lexeme :=
  ⟨x.numbering.token t, start, stop, false⟩

open Character Lexical

-- The question mark of a conditional expression: not that of a chain, unless digits follow, and in the
-- typed languages not that of an optional parameter.
def conditionalMark (i : Nat) : Option Lexeme :=
  let j := skipAll isBreakingSpace cs i
  let k := if x.isTyped then skipAll isBreakingSpace cs (j + 1) else j + 1
  let isMark := is cs j '?' && !is cs (j + 1) '?' && !(x.isTyped && is cs (j + 1) '.') &&
    !(x.isTyped && Insertion.isOneOf [':', ')', ','] cs k) &&
    (!is cs k '.' || sat cs (k + 1) Char.isDigit)
  if isMark then some (x.lexeme .conditionalMark j (j + 1)) else none

-- A comment that markup would make; it ends with its line.
def markupComment : Option Lexeme :=
  let j := skipAll (fun c => isBreakingSpace c || isStatementBreak c) cs i
  let opened := (literal "<!--" cs j).orElse fun _ => literal "-->" cs j
  opened.map fun k =>
    x.lexeme .markupComment j (skipAll (fun c => !isStatementBreak c && c != '\x00') cs k)

def contextual : Option Lexeme :=
  let may := x.expects expected
  let operator := may (.literal "||")
  if may .templateText then
    if may .omittedSemicolon then none
    else (templateText cs i).map (x.lexeme .templateText i)
  else
    let text := if may .markupText then markupText cs i else none
    match text with
    | some j => some (x.lexeme .markupText i j)
    | none =>
      if may .omittedSemicolon || may .omittedBody then
        let (ends, search) := Insertion.ends x.isTyped operator (may .omittedBody) cs i
        if ends then some (x.lexeme .omittedSemicolon i i)
        else if !search.sawComment && may .conditionalMark && is cs search.stop '?' then
          x.conditionalMark cs search.stop
        else none
      else if may .conditionalMark then x.conditionalMark cs i
      else if !operator && !may .escape && !may .regexBody then x.markupComment cs i
      else none

def readAt (i : Nat) (t : Nat × Token) : Option Lexeme :=
  if expected.contains t.1 then
    match t.2.read cs i with
    | some j => if i < j then some ⟨t.1, i, j, false⟩ else none
    | none => none
  else none

def farther (a b : Option Lexeme) : Option Lexeme :=
  match a, b with
  | some x, some y => if x.stop < y.stop then some y else some x
  | some x, none => some x
  | none, b => b

def forbids (token : Nat) : Bool :=
  x.expects expected .name && !expected.contains x.numbering.tokens.size && x.reserved.contains token

def word (i : Nat) : Option Lexeme := do
  let j ← if (expected ∩ x.words).isEmpty then none else name cs i
  let plain := x.lexeme .name i j
  match x.keywords[String.ofList (cs.extract i j).toList]? with
  | none => some plain
  | some k =>
    if expected.contains k || x.forbids expected k then some ⟨k, i, j, true⟩
    else some { plain with isKeyword := true }

def scan : Option Lexeme :=
  (x.contextual expected cs i).or <|
  (x.urgent.findSome? (readAt expected cs i)).or <|
    let near := (x.adjoining.map (readAt expected cs i)).foldl farther none
    let j := skipAll isSpace cs i
    if cs.size ≤ j then
      near.or (if x.expects expected .finish then some (x.lexeme .finish j j) else none)
    else
      let mark := x.marks.findSome? (readAt expected cs j)
      let pattern := (x.patterns.map (readAt expected cs j)).foldl farther none
      let word := x.word expected cs j
      farther (farther mark near) (farther word pattern)

end Lexicon

end QueryGlean
