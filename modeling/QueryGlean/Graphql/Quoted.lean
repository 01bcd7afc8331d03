
namespace QueryGlean.Graphql.Quoted

def hexValue? (c : Char) : Option Nat :=
  if '0' ≤ c ∧ c ≤ '9' then some (c.toNat - 48)
  else if 'a' ≤ c ∧ c ≤ 'f' then some (c.toNat - 87)
  else if 'A' ≤ c ∧ c ≤ 'F' then some (c.toNat - 55)
  else none

def hexNumber? (cs : List Char) : Option Nat :=
  cs.foldl (fun acc c => do return 16 * (← acc) + (← hexValue? c)) (some 0)

def isScalarValue (n : Nat) : Bool :=
  n ≤ 0xD7FF || (0xE000 ≤ n && n ≤ 0x10FFFF)

def simple? : Char → Option Char
  | '"' => some '"'
  | '\\' => some '\\'
  | '/' => some '/'
  | 'b' => some '\x08'
  | 'f' => some '\x0c'
  | 'n' => some '\n'
  | 'r' => some '\r'
  | 't' => some '\t'
  | _ => none

inductive BadEscape
  | character (spelling : String)
  | unicode (spelling : String)
deriving DecidableEq, Repr

def fourDigits? (cs : List Char) : Option Nat :=
  if cs.length < 4 then none else hexNumber? (cs.take 4)

def fixedWidth? (cs : List Char) : Option (Char × Nat) := do
  let code ← fourDigits? cs
  if isScalarValue code then some (Char.ofNat code, 6)
  -- A surrogate stands for a character only with the other half behind it.
  else match cs.drop 4 with
    | '\\' :: 'u' :: rest =>
      let low ← fourDigits? rest
      if 0xD800 ≤ code ∧ code ≤ 0xDBFF ∧ 0xDC00 ≤ low ∧ low ≤ 0xDFFF then
        some (Char.ofNat (0x10000 + (code - 0xD800) * 0x400 + (low - 0xDC00)), 12)
      else none
    | _ => none

-- One to eight hexadecimal digits in braces. The second component is the count of characters
-- that an error message shows.
def variableWidth? (cs : List Char) : Except Nat (Char × Nat) :=
  go 0 3 (min 9 (cs.length)) cs
where
  go (point size : Nat) : Nat → List Char → Except Nat (Char × Nat)
    | 0, _ | _, [] => .error size
    | fuel + 1, c :: cs =>
      if c = '}' then
        if 5 ≤ size + 1 ∧ isScalarValue point then .ok (Char.ofNat point, size + 1)
        else .error (size + 1)
      else match hexValue? c with
        | some d => go (16 * point + d) (size + 1) fuel cs
        | none => .error (size + 1)

def escape? (cs : List Char) : Except BadEscape (Char × Nat) :=
  match cs.drop 1 with
  | 'u' :: '{' :: rest =>
    match variableWidth? rest with
    | .ok r => .ok r
    | .error size => .error (.unicode (String.ofList (cs.take size)))
  | 'u' :: rest =>
    match fixedWidth? rest with
    | some r => .ok r
    | none => .error (.unicode (String.ofList (cs.take 6)))
  | c :: _ =>
    match simple? c with
    | some d => .ok (d, 2)
    | none => .error (.character (String.ofList (cs.take 2)))
  | [] => .error (.character (String.ofList cs))

-- The text that the inside of a string literal stands for; `fuel` bounds the steps, and the
-- length of the text is enough.
def valueWithin : Nat → List Char → List Char
  | 0, _ => []
  | _, [] => []
  | fuel + 1, c :: cs =>
    if c = '\\' then
      match escape? (c :: cs) with
      | .ok (d, n) => d :: valueWithin fuel ((c :: cs).drop n)
      | .error _ => valueWithin fuel cs
    else c :: valueWithin fuel cs

def value (inside : List Char) : String :=
  String.ofList (valueWithin inside.length inside)

def upperHexDigit (n : Nat) : Char :=
  if n < 10 then Char.ofNat (48 + n) else Char.ofNat (55 + n)

def printChar (c : Char) : List Char :=
  let n := c.toNat
  if c = '"' then ['\\', '"']
  else if c = '\\' then ['\\', '\\']
  else if c = '\x08' then ['\\', 'b']
  else if c = '\t' then ['\\', 't']
  else if c = '\n' then ['\\', 'n']
  else if c = '\x0c' then ['\\', 'f']
  else if c = '\r' then ['\\', 'r']
  else if n < 0x20 ∨ (0x7F ≤ n ∧ n ≤ 0x9F) then
    ['\\', 'u', '0', '0', upperHexDigit (n / 16), upperHexDigit (n % 16)]
  else [c]

def print (text : String) : String :=
  "\"" ++ String.ofList (text.toList.flatMap printChar) ++ "\""

end QueryGlean.Graphql.Quoted
