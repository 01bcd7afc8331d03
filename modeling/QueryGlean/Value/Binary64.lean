import QueryGlean.Value

namespace QueryGlean.Value

def roundToEven (n d : Nat) : Nat :=
  let q := n / d
  let twice := 2 * (n % d)
  if twice < d || (twice == d && q % 2 == 0) then q else q + 1

def lastDigit (n d : Nat) : Int :=
  let e : Int := (n.log2 : Int) - d.log2 - 52
  -- The quotient of the logarithms may be one too large.
  let isBelow := if 0 ≤ e then n < d <<< (e.toNat + 52) else n <<< (-e).toNat < d <<< 52
  max (if isBelow then e - 1 else e) (-1074)

-- A binary number has finitely many decimal places, so it can be kept as a decimal again.
def ofDecimal (mantissa : Int) (places : Nat) : Value :=
  let n := mantissa.natAbs
  let d := Nat.pow 10 places
  let sign (m : Nat) : Int := if mantissa < 0 then -m else m
  match lastDigit n d with
  | .ofNat e => .decimal (sign (roundToEven n (d <<< e) <<< e)) 0
  | .negSucc k => .decimal (sign (roundToEven (n <<< (k + 1)) d * Nat.pow 5 (k + 1))) (k + 1)

end QueryGlean.Value
