import QueryGlean.Text.Hex

namespace QueryGlean

-- A decimal is its mantissa divided by the power of ten of its places; even without places it is
-- no integer.
inductive Value
  | null
  | bool (b : Bool)
  | integer (n : Int)
  | decimal (mantissa : Int) (places : Nat)
  | text (s : String)
  | list (items : List Value)
  | record (fields : List (String × Value))
deriving Repr, Inhabited, BEq

namespace Value

def isEmpty : Value → Bool
  | null => true
  | bool b => !b
  | integer n => n = 0
  | decimal m _ => m = 0
  | text s => s = ""
  | list items => items.isEmpty
  | record fields => fields.isEmpty

def kindName : Value → String
  | null => "NoneType"
  | bool _ => "bool"
  | integer _ => "int"
  | decimal .. => "float"
  | text _ => "str"
  | list _ => "list"
  | record _ => "dict"

def ofOption (f : α → Value) : Option α → Value
  | some a => f a
  | none => null

def units16 (c : Char) : List Nat :=
  let n := c.toNat
  if n < 0x10000 then [n] else [0xD800 + (n - 0x10000) / 0x400, 0xDC00 + (n - 0x10000) % 0x400]

def jsonChar (c : Char) : List Char :=
  if c = '"' ∨ c = '\\' then ['\\', c]
  else if c = '\n' then ['\\', 'n']
  else if c = '\r' then ['\\', 'r']
  else if c = '\t' then ['\\', 't']
  else if c = '\x08' then ['\\', 'b']
  else if c = '\x0c' then ['\\', 'f']
  else if 0x20 ≤ c.toNat ∧ c.toNat < 0x7F then [c]
  else (units16 c).flatMap fun u => '\\' :: 'u' :: hexDigits u 4

def jsonString (s : String) : String :=
  "\"" ++ String.ofList (s.toList.flatMap jsonChar) ++ "\""

def indent (n : Nat) : String :=
  String.ofList (List.replicate (2 * n) ' ')

def jsonDecimal (mantissa : Int) (places : Nat) : String :=
  let digits := toString mantissa.natAbs
  let padded := String.ofList (List.replicate (places + 1 - digits.length) '0') ++ digits
  let whole := padded.length - places
  (if mantissa < 0 then "-" else "") ++ String.ofList (padded.toList.take whole) ++ "." ++
    (if places = 0 then "0" else String.ofList (padded.toList.drop whole))

mutual

def json (depth : Nat) : Value → String
  | null => "null"
  | bool b => if b then "true" else "false"
  | integer n => toString n
  | decimal m p => jsonDecimal m p
  | text s => jsonString s
  | list [] => "[]"
  | list (v :: vs) =>
    "[\n" ++ indent (depth + 1) ++ json (depth + 1) v ++ jsonItems (depth + 1) vs ++
      "\n" ++ indent depth ++ "]"
  | record [] => "\x7b\x7d"
  | record ((k, v) :: fs) =>
    "\x7b\n" ++ indent (depth + 1) ++ jsonString k ++ ": " ++ json (depth + 1) v ++
      jsonFields (depth + 1) fs ++ "\n" ++ indent depth ++ "\x7d"

def jsonItems (depth : Nat) : List Value → String
  | [] => ""
  | v :: vs => ",\n" ++ indent depth ++ json depth v ++ jsonItems depth vs

def jsonFields (depth : Nat) : List (String × Value) → String
  | [] => ""
  | (k, v) :: fs => ",\n" ++ indent depth ++ jsonString k ++ ": " ++ json depth v ++ jsonFields depth fs

end

def toJson (v : Value) : String :=
  json 0 v

end Value

end QueryGlean
