
namespace QueryGlean

def hexDigit (n : Nat) : Char :=
  if n < 10 then Char.ofNat (48 + n) else Char.ofNat (87 + n)

def hexDigits (n : Nat) : Nat → List Char
  | 0 => []
  | digits + 1 => hexDigits (n / 16) digits ++ [hexDigit (n % 16)]

end QueryGlean
