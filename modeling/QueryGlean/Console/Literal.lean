
namespace QueryGlean.Literal

inductive Token
  | number (isImaginary : Bool)
  | text (isBytes : Bool)
  | name (cs : List Char)
  | dots
  | mark (c : Char)
  | lineEnd
deriving DecidableEq, Repr

def isNameChar (c : Char) : Bool :=
  c.isAlphanum || c == '_' || 0x80 ≤ c.toNat

def isHex (c : Char) : Bool :=
  c.isDigit || ('a' ≤ c && c ≤ 'f') || ('A' ≤ c && c ≤ 'F')

def pastDigits (isDigit : Char → Bool) : List Char → List Char
  | [] => []
  | [c] => if isDigit c then [] else [c]
  | c :: d :: cs =>
    if isDigit c then pastDigits isDigit (d :: cs)
    else if c = '_' ∧ isDigit d then pastDigits isDigit cs
    else c :: d :: cs

def digits? (isDigit : Char → Bool) : List Char → Option (List Char)
  | [] => none
  | c :: cs => if isDigit c then some (pastDigits isDigit cs) else none

def pastFraction : List Char → List Char
  | '.' :: cs => (digits? Char.isDigit cs).getD cs
  | cs => cs

def pastExponent : List Char → List Char
  | e :: cs =>
    if e = 'e' ∨ e = 'E' then
      let unsigned := match cs with
        | '+' :: cs | '-' :: cs => cs
        | cs => cs
      (digits? Char.isDigit unsigned).getD (e :: cs)
    else e :: cs
  | [] => []

def baseDigit? (letter : Char) : Option (Char → Bool) :=
  match letter.toLower with
  | 'x' => some isHex
  | 'o' => some fun c => '0' ≤ c && c ≤ '7'
  | 'b' => some fun c => c == '0' || c == '1'
  | _ => none

def decimal? (cs : List Char) : Option (Bool × List Char) :=
  let behindWhole := pastDigits Char.isDigit cs
  let whole := cs.take (cs.length - behindWhole.length)
  let rest := pastExponent (pastFraction behindWhole)
  let zeros := whole.head? = some '0' ∧ whole.any fun c => c.isDigit && c != '0'
  match rest with
  | 'j' :: rest | 'J' :: rest => some (true, rest)
  | rest => if zeros ∧ rest.length = behindWhole.length then none else some (false, rest)

def number? (cs : List Char) : Option (Bool × List Char) :=
  let r := match cs with
    | '0' :: letter :: rest =>
      match baseDigit? letter, rest with
      | some isDigit, '_' :: rest | some isDigit, rest => (digits? isDigit rest).map (false, ·)
      | none, _ => decimal? cs
    | cs => decimal? cs
  r.filter fun (_, rest) => !rest.head?.any isNameChar

def hexes (n : Nat) (cs : List Char) : Option (List Char) :=
  if (cs.take n).length = n ∧ (cs.take n).all isHex then some (cs.drop n) else none

def pastEscape (isBytes : Bool) : List Char → Option (List Char)
  | [] => none
  | 'x' :: cs => hexes 2 cs
  | '\r' :: '\n' :: cs => some cs
  | c :: cs =>
    if isBytes then if c.toNat < 0x80 then some cs else none
    else match c, cs with
      | 'u', cs => hexes 4 cs
      -- The greatest code point is U+10FFFF.
      | 'U', '0' :: '0' :: '0' :: cs => hexes 5 cs
      | 'U', '0' :: '0' :: '1' :: '0' :: cs => hexes 4 cs
      | 'U', _ => none
      | 'N', '\x7b' :: cs =>
        let name := cs.takeWhile fun d => d.isAlphanum || d == ' ' || d == '-'
        match name, cs.drop name.length with
        | _ :: _, '\x7d' :: rest => some rest
        | _, _ => none
      | 'N', _ => none
      | _, cs => some cs

structure Quoting where
  quote : Char
  -- Whether three quotes surround the text.
  isLong : Bool
  isRaw : Bool
  isBytes : Bool

-- What is behind a text of which the opening quotes have been read. Each step passes a character,
-- so the length of the text is enough fuel.
def pastText (q : Quoting) : Nat → List Char → Option (List Char)
  | 0, _ => none
  | _, [] => none
  | fuel + 1, c :: cs =>
    if c = q.quote then
      if !q.isLong then some cs
      else match cs with
        | d :: e :: rest => if d = c ∧ e = c then some rest else pastText q fuel cs
        | _ => none
    else if (c = '\n' ∨ c = '\r') ∧ !q.isLong then none
    else if q.isBytes ∧ 0x80 ≤ c.toNat then none
    else if c = '\\' then
      if q.isRaw then
        match cs with
        | d :: cs => if q.isBytes ∧ 0x80 ≤ d.toNat then none else pastText q fuel cs
        | [] => none
      else (pastEscape q.isBytes cs).bind (pastText q fuel)
    else pastText q fuel cs

def textKind? (letters : List Char) : Option (Bool × Bool) :=
  match letters.map Char.toLower with
  | [] | ['u'] => some (false, false)
  | ['r'] => some (true, false)
  | ['b'] => some (false, true)
  | ['b', 'r'] | ['r', 'b'] => some (true, true)
  | _ => none

def text? (letters cs : List Char) : Option (Token × List Char) := do
  let (isRaw, isBytes) ← textKind? letters
  let rest ← match cs with
    | q :: r :: s :: cs =>
      if q = r ∧ q = s then pastText ⟨q, true, isRaw, isBytes⟩ (cs.length + 1) cs
      else pastText ⟨q, false, isRaw, isBytes⟩ (cs.length + 3) (r :: s :: cs)
    | q :: cs => pastText ⟨q, false, isRaw, isBytes⟩ (cs.length + 1) cs
    | [] => none
  return (.text isBytes, rest)

def isQuote (c : Char) : Bool :=
  c == '\'' || c == '"'

def maxDepth : Nat := 200

-- The tokens of a text with `depth` open brackets, inside of which the ends of lines do not count.
-- Each step passes a character, so the length of the text is enough fuel.
def scan (depth : Nat) : Nat → List Char → Option (List Token)
  | 0, _ => none
  | _, [] => some []
  | fuel + 1, c :: cs =>
    if c = ' ' ∨ c = '\t' ∨ c = '\x0c' then scan depth fuel cs
    else if c = '\n' ∨ c = '\r' then
      if depth = 0 then (scan depth fuel cs).map (.lineEnd :: ·) else scan depth fuel cs
    else if c = '#' then scan depth fuel (cs.dropWhile fun d => d != '\n' && d != '\r')
    else if c = '\\' then
      match cs with
      | '\r' :: '\n' :: cs | '\n' :: cs | '\r' :: cs => scan depth fuel cs
      | _ => none
    else if c.isDigit || (c = '.' && cs.head?.any Char.isDigit) then do
      let (isImaginary, rest) ← number? (c :: cs)
      (scan depth fuel rest).map (.number isImaginary :: ·)
    else if isQuote c || isNameChar c then do
      let letters := (c :: cs).takeWhile isNameChar
      let rest := (c :: cs).dropWhile isNameChar
      if rest.head?.any isQuote then
        let (t, rest) ← text? letters rest
        (scan depth fuel rest).map (t :: ·)
      else (scan depth fuel rest).map (.name letters :: ·)
    else match c, cs with
      | '.', '.' :: '.' :: cs => (scan depth fuel cs).map (.dots :: ·)
      | '(', cs | '\x7b', cs =>
        if depth = maxDepth then none else (scan (depth + 1) fuel cs).map (.mark c :: ·)
      | ')', cs | '\x7d', cs => (scan (depth - 1) fuel cs).map (.mark c :: ·)
      | '+', cs | '-', cs | ',', cs | ':', cs => (scan depth fuel cs).map (.mark c :: ·)
      | _, _ => none

inductive Shape
  | number (isImaginary isSigned : Bool)
  -- Any other value that may be in a set.
  | key
  | table
deriving DecidableEq, Repr

mutual

def value : Nat → List Token → Option (Shape × List Token)
  | 0, _ => none
  | fuel + 1, ts => do
    let (left, rest) ← match ts with
      | .mark '+' :: ts | .mark '-' :: ts =>
        match ← atom fuel ts with
        | (.number isImaginary false, rest) => some (Shape.number isImaginary true, rest)
        | _ => none
      | ts => atom fuel ts
    match rest with
    | .mark '+' :: rest | .mark '-' :: rest =>
      match left, ← atom fuel rest with
      | .number false _, (.number true false, rest) => return (.key, rest)
      | _, _ => none
    | rest => return (left, rest)

def atom : Nat → List Token → Option (Shape × List Token)
  | 0, _ => none
  | fuel + 1, ts =>
    match ts with
    | .number isImaginary :: ts => some (.number isImaginary false, ts)
    -- Texts that follow one another are one text.
    | .text isBytes :: ts => some (.key, ts.dropWhile (· = .text isBytes))
    | .dots :: ts => some (.key, ts)
    | .name n :: ts =>
      if n = "True".toList ∨ n = "False".toList ∨ n = "None".toList then some (.key, ts)
      else match ts with
        | .mark '(' :: .mark ')' :: ts => if n = "set".toList then some (.table, ts) else none
        | _ => none
    | .mark '(' :: .mark ')' :: ts => some (.key, ts)
    | .mark '\x7b' :: .mark '\x7d' :: ts => some (.table, ts)
    | .mark '(' :: ts => do
      let (shapes, rest) ← items fuel ts
      match shapes, rest with
      | [s], .mark ')' :: rest => return (s, rest)
      | shapes, .mark ',' :: .mark ')' :: rest | shapes, .mark ')' :: rest =>
        return (if shapes.contains .table then .table else .key, rest)
      | _, _ => none
    | .mark '\x7b' :: ts => do
      let (first, rest) ← value fuel ts
      if first = .table then none
      else
        let (keys, rest) ← match rest with
          | .mark ':' :: _ => pairs fuel ts
          | _ => items fuel ts
        match rest with
        | .mark ',' :: .mark '\x7d' :: rest | .mark '\x7d' :: rest =>
          if keys.contains .table then none else return (.table, rest)
        | _ => none
    | _ => none

def items : Nat → List Token → Option (List Shape × List Token)
  | 0, _ => none
  | fuel + 1, ts => do
    let (s, rest) ← value fuel ts
    match rest with
    | .mark ',' :: more =>
      match items fuel more with
      | some (shapes, rest) => return (s :: shapes, rest)
      | none => return ([s], rest)
    | rest => return ([s], rest)

def pairs : Nat → List Token → Option (List Shape × List Token)
  | 0, _ => none
  | fuel + 1, ts => do
    let (k, rest) ← value fuel ts
    match rest with
    | .mark ':' :: ts =>
      let (_, rest) ← value fuel ts
      match rest with
      | .mark ',' :: more =>
        match pairs fuel more with
        | some (keys, rest) => return (k :: keys, rest)
        | none => return ([k], rest)
      | rest => return ([k], rest)
    | _ => none

end

-- Lists are left out, since the tags whose parameters are read here cannot hold a square bracket.
def isLiteral (cs : List Char) : Bool :=
  match scan 0 (cs.length + 1) cs with
  | none => false
  | some ts =>
    let ts := ((ts.dropWhile (· = .lineEnd)).reverse.dropWhile (· = .lineEnd)).reverse
    !ts.isEmpty &&
      match atom (4 * ts.length + 8) (.mark '(' :: ts ++ [.mark ')']) with
      | some (_, []) => true
      | _ => false

end QueryGlean.Literal
