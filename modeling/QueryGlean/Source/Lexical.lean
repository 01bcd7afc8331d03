import QueryGlean.Source.Character

namespace QueryGlean

abbrev Lexical := Array Char → Nat → Option Nat

namespace Lexical

open Character

def is (cs : Array Char) (i : Nat) (c : Char) : Bool :=
  cs[i]? == some c

def sat (cs : Array Char) (i : Nat) (p : Char → Bool) : Bool :=
  cs[i]?.any p

-- Whether the text is over here. A NUL ends it for whatever reads up to the end.
def ended (cs : Array Char) (i : Nat) : Bool :=
  cs[i]?.all (· == '\x00')

-- The first place from `i` on where the class ends; `fuel` bounds the steps.
def skip (p : Char → Bool) (cs : Array Char) : Nat → Nat → Nat
  | 0, i => i
  | fuel + 1, i => if sat cs i p then skip p cs fuel (i + 1) else i

def skipAll (p : Char → Bool) (cs : Array Char) (i : Nat) : Nat :=
  skip p cs (cs.size - i) i

def run (p : Char → Bool) : Lexical := fun cs i =>
  let j := skipAll p cs i
  if i < j then some j else none

def matches' (cs : Array Char) : Nat → List Char → Bool
  | _, [] => true
  | i, c :: rest => is cs i c && matches' cs (i + 1) rest

def literal (s : String) : Lexical := fun cs i =>
  let l := s.toList
  if matches' cs i l then some (i + l.length) else none

def nameEscape (cs : Array Char) (i : Nat) : Option Nat :=
  if is cs i '\\' && is cs (i + 1) 'u' then
    if is cs (i + 2) '{' then
      let j := skipAll isHexDigit cs (i + 3)
      if i + 3 < j && is cs j '}' then some (j + 1) else none
    else if [2, 3, 4, 5].all fun k => sat cs (i + k) isHexDigit then some (i + 6)
    else none
  else none

def nameRest (cs : Array Char) : Nat → Nat → Nat
  | 0, i => i
  | fuel + 1, i =>
    if sat cs i isNamePart then nameRest cs fuel (i + 1)
    else match nameEscape cs i with
      | some j => nameRest cs fuel j
      | none => i

def name : Lexical := fun cs i =>
  if sat cs i isNameStart then some (nameRest cs (cs.size - i) (i + 1))
  else (nameEscape cs i).map (nameRest cs (cs.size - i))

def privateName : Lexical := fun cs i =>
  if is cs i '#' then name cs (i + 1) else none

def digitRun (p : Char → Bool) (cs : Array Char) : Nat → Nat → Option Nat
  | 0, _ => none
  | fuel + 1, i =>
    if sat cs i p then
      let next := if is cs (i + 1) '_' then i + 2 else i + 1
      (digitRun p cs fuel next).orElse fun _ => some (i + 1)
    else none

def digits (p : Char → Bool) (cs : Array Char) (i : Nat) : Option Nat :=
  digitRun p cs (cs.size - i + 1) i

def exponent (cs : Array Char) (i : Nat) : Option Nat :=
  if sat cs i fun c => c == 'e' || c == 'E' then
    let j := if sat cs (i + 1) fun c => c == '+' || c == '-' then i + 2 else i + 1
    digits Char.isDigit cs j
  else none

def wholePart (cs : Array Char) (i : Nat) : Option Nat :=
  match digits Char.isDigit cs i with
  | none => none
  | some j =>
    -- A zero in front stands alone, or is no part of a fraction's whole.
    if is cs i '0' then
      if j = i + 1 then some j
      else if sat cs (i + 1) fun c => '1' ≤ c && c ≤ '9' then some j
      else some (i + 1)
    else some j

def radixNumber (cs : Array Char) (i : Nat) : Option Nat :=
  if is cs i '0' then
    match cs[i + 1]? with
    | some 'x' | some 'X' => digits isHexDigit cs (i + 2)
    | some 'b' | some 'B' => digits isBinaryDigit cs (i + 2)
    | some 'o' | some 'O' => digits isOctalDigit cs (i + 2)
    | _ => none
  else none

def farther (a b : Option Nat) : Option Nat :=
  match a, b with
  | some x, some y => some (max x y)
  | some x, none => some x
  | none, b => b

def number : Lexical := fun cs i =>
  let whole := wholePart cs i
  let plain := digits Char.isDigit cs i
  let fraction := match whole with
    | some j =>
      if is cs j '.' then
        let k := (digits Char.isDigit cs (j + 1)).getD (j + 1)
        some ((exponent cs k).getD k)
      else exponent cs j
    | none =>
      if is cs i '.' then (digits Char.isDigit cs (i + 1)).map fun k => (exponent cs k).getD k
      else none
  let integer := farther (radixNumber cs i) plain
  let big := match integer with
    | some j => if is cs j 'n' then some (j + 1) else none
    | none => none
  farther fraction (farther integer big)

def escape : Lexical := fun cs i =>
  if is cs i '\\' && !ended cs (i + 1) then
    match cs[i + 1]? with
    | none => none
    | some 'x' => if sat cs (i + 2) isHexDigit && sat cs (i + 3) isHexDigit then some (i + 4) else none
    | some 'u' => nameEscape cs i
    | some c =>
      if isOctalDigit c then
        if sat cs (i + 2) isOctalDigit then
          if sat cs (i + 3) isOctalDigit then some (i + 4) else some (i + 3)
        else some (i + 2)
      -- A carriage return, and a question mark too, takes the line end behind it along.
      else if (c == '\r' || c == '?') && sat cs (i + 2) isStatementBreak then some (i + 3)
      else some (i + 2)
  else none

def quotedText (quote : Char) : Lexical :=
  run fun c => c != quote && c != '\\' && c != '\r' && c != '\n' && c != '\x00'

def templateEnd (cs : Array Char) : Nat → Nat → Nat
  | 0, i => i
  | fuel + 1, i =>
    if ended cs i || is cs i '\x60' || is cs i '\\' || (is cs i '$' && is cs (i + 1) '{') then i
    else templateEnd cs fuel (i + 1)

def templateText : Lexical := fun cs i =>
  let j := templateEnd cs (cs.size - i) i
  if i < j && !ended cs j then some j else none

def regexEscape : Lexical := fun cs i =>
  if is cs i '\\' && !ended cs (i + 1) && !is cs (i + 1) '\n' then some (i + 2) else none

def regexClass (cs : Array Char) : Nat → Nat → Option Nat
  | 0, _ => none
  | fuel + 1, i =>
    if ended cs i || is cs i '\n' then none
    else if is cs i ']' then some (i + 1)
    else match regexEscape cs i with
      | some j => regexClass cs fuel j
      | none => if is cs i '\\' then none else regexClass cs fuel (i + 1)

def regexRest (cs : Array Char) : Nat → Nat → Nat
  | 0, i => i
  | fuel + 1, i =>
    if ended cs i || is cs i '\n' || is cs i '/' then i
    else if is cs i '[' then
      match regexClass cs (cs.size - i) (i + 1) with
      | some j => regexRest cs fuel j
      | none => i
    else match regexEscape cs i with
      | some j => regexRest cs fuel j
      | none => if is cs i '\\' then i else regexRest cs fuel (i + 1)

def regexBody : Lexical := fun cs i =>
  let j := regexRest cs (cs.size - i) i
  if i < j then some j else none

def regexFlags : Lexical :=
  run fun c => 'a' ≤ c && c ≤ 'z'

def markupTextRest (cs : Array Char) (sawText atBreak : Bool) : Nat → Nat → Bool × Nat
  | 0, i => (sawText, i)
  | fuel + 1, i =>
    match cs[i]? with
    | none => (sawText, i)
    | some c =>
      if ['\x00', '<', '>', '{', '}', '&'].contains c then (sawText, i)
      else if c = '\n' then markupTextRest cs sawText true fuel (i + 1)
      else
        let still := atBreak && isBreakingSpace c
        markupTextRest cs (sawText || !still) still fuel (i + 1)

def markupText : Lexical := fun cs i =>
  let (sawText, j) := markupTextRest cs false false (cs.size - i) i
  if sawText then some j else none

def characterReference : Lexical := fun cs i =>
  if is cs i '&' then
    let bounded (p : Char → Bool) (j n : Nat) : Option Nat :=
      let k := skipAll p cs j
      if j < k && k ≤ j + n && is cs k ';' then some (k + 1) else none
    if is cs (i + 1) '#' then
      if sat cs (i + 2) fun c => c == 'x' || c == 'X' then bounded isHexDigit (i + 3) 6
      else bounded Char.isDigit (i + 2) 5
    else bounded Char.isAlpha (i + 1) 30
  else none

def quotedMarkupRest (quote : Char) (cs : Array Char) : Nat → Nat → Nat
  | 0, i => i
  | fuel + 1, i =>
    if ended cs i || is cs i quote then i
    else if is cs i '&' then
      -- An ampersand that starts no reference is text, along with what follows it.
      if ended cs (i + 1) || sat cs (i + 1) fun c => c == '#' || c.isAlpha then i
      else quotedMarkupRest quote cs fuel (i + 2)
    else quotedMarkupRest quote cs fuel (i + 1)

def quotedMarkup (quote : Char) : Lexical := fun cs i =>
  let j := quotedMarkupRest quote cs (cs.size - i) i
  if i < j then some j else none

def hyphenated : Lexical := fun cs i =>
  let start (c : Char) : Bool := c.isAlpha || c == '_' || c == '$'
  let part (c : Char) : Bool := start c || c.isDigit
  if sat cs i start then
    let j := skipAll part cs (i + 1)
    if is cs j '-' then some (skipAll (fun c => part c || c == '-') cs (j + 1)) else none
  else none

def lineComment : Lexical := fun cs i =>
  if is cs i '/' && is cs (i + 1) '/' then
    some (skipAll (fun c => !isLineBreak c && c != '\x00') cs (i + 2))
  else none

def blockCommentRest (cs : Array Char) : Nat → Nat → Option Nat
  | 0, _ => none
  | fuel + 1, i =>
    if is cs i '*' && is cs (i + 1) '/' then some (i + 2)
    else if ended cs i then none
    else blockCommentRest cs fuel (i + 1)

def blockComment : Lexical := fun cs i =>
  if is cs i '/' && is cs (i + 1) '*' then blockCommentRest cs (cs.size - i) (i + 2) else none

def comment : Lexical := fun cs i =>
  (lineComment cs i).orElse fun _ => blockComment cs i

def interpreterLine : Lexical := fun cs i =>
  if is cs i '#' && is cs (i + 1) '!' then
    some (skipAll (fun c => c != '\n' && c != '\x00') cs (i + 2))
  else none

def behindLineFeed (cs : Array Char) : Nat → Nat → Option Nat
  | 0, _ => none
  | fuel + 1, i => if is cs (i - 1) '\n' then some i else behindLineFeed cs fuel (i - 1)

def staticGetter : Lexical := fun cs i =>
  let isGap (c : Char) : Bool := '\t' ≤ c && c ≤ '\r' || c == ' '
  match (literal "static" cs i).bind (run isGap cs) with
  | none => none
  | some j =>
    match literal "get" cs j with
    | none => none
    | some k =>
      let stop := skipAll isGap cs k
      behindLineFeed cs (stop - k) stop

end Lexical

end QueryGlean
