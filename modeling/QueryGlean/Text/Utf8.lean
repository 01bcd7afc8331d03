import QueryGlean.Text.Hex

namespace QueryGlean.Utf8

inductive Flaw
  | startByte
  | continuationByte
  | endOfData
deriving DecidableEq, Repr

structure Fault where
  flaw : Flaw
  start : Nat
  count : Nat
  first : UInt8
deriving DecidableEq, Repr

def Flaw.message : Flaw → String
  | startByte => "invalid start byte"
  | continuationByte => "invalid continuation byte"
  | endOfData => "unexpected end of data"

def Fault.message (f : Fault) : String :=
  let bytes :=
    if f.count = 1 then
      "byte 0x" ++ String.ofList (hexDigits f.first.toNat 2) ++ s!" in position {f.start}"
    else s!"bytes in position {f.start}-{f.start + f.count - 1}"
  s!"'utf-8' codec can't decode {bytes}: {f.flaw.message}"

def isContinuation (b : UInt8) : Bool :=
  0x80 ≤ b && b < 0xC0

def secondBounds (a : UInt8) : UInt8 × UInt8 :=
  if a = 0xE0 then (0xA0, 0xBF)
  else if a = 0xED then (0x80, 0x9F)
  else if a = 0xF0 then (0x90, 0xBF)
  else if a = 0xF4 then (0x80, 0x8F)
  else (0x80, 0xBF)

def isSecond (a b : UInt8) : Bool :=
  (secondBounds a).1 ≤ b && b ≤ (secondBounds a).2

def low (b : UInt8) : Nat :=
  b.toNat % 64

def scalar (a : UInt8) (rest : List UInt8) : Except (Flaw × Nat) (Char × Nat) :=
  if a < 0x80 then .ok (Char.ofNat a.toNat, 0)
  else if a < 0xC2 then .error (.startByte, 1)
  else if a < 0xE0 then
    match rest with
    | [] => .error (.endOfData, 1)
    | b :: _ =>
      if isContinuation b then .ok (Char.ofNat (a.toNat % 32 * 64 + low b), 1)
      else .error (.continuationByte, 1)
  else if a < 0xF0 then
    match rest with
    | [] => .error (.endOfData, 1)
    | [b] => if isSecond a b then .error (.endOfData, 2) else .error (.continuationByte, 1)
    | b :: c :: _ =>
      if !isSecond a b then .error (.continuationByte, 1)
      else if !isContinuation c then .error (.continuationByte, 2)
      else .ok (Char.ofNat ((a.toNat % 16 * 64 + low b) * 64 + low c), 2)
  else if a < 0xF5 then
    match rest with
    | [] => .error (.endOfData, 1)
    | [b] => if isSecond a b then .error (.endOfData, 2) else .error (.continuationByte, 1)
    | [b, c] =>
      if !isSecond a b then .error (.continuationByte, 1)
      else if !isContinuation c then .error (.continuationByte, 2)
      else .error (.endOfData, 3)
    | b :: c :: d :: _ =>
      if !isSecond a b then .error (.continuationByte, 1)
      else if !isContinuation c then .error (.continuationByte, 2)
      else if !isContinuation d then .error (.continuationByte, 3)
      else .ok (Char.ofNat (((a.toNat % 8 * 64 + low b) * 64 + low c) * 64 + low d), 3)
  else .error (.startByte, 1)

-- Reads bytes that start at a place; the characters read so far, latest first, are in `acc`.
def decodeFrom (acc : List Char) (place : Nat) : List UInt8 → Except Fault (List Char)
  | [] => .ok acc.reverse
  | a :: rest =>
    match scalar a rest with
    | .error (flaw, count) => .error ⟨flaw, place, count, a⟩
    | .ok (c, more) => decodeFrom (c :: acc) (place + more + 1) (rest.drop more)
termination_by bytes => bytes.length
decreasing_by simp only [List.length_drop, List.length_cons]; omega

def decode (bytes : List UInt8) : Except Fault String :=
  (decodeFrom [] 0 bytes).map String.ofList

def unifyLineEnds : List Char → List Char
  | [] => []
  | '\r' :: '\n' :: cs => '\n' :: unifyLineEnds cs
  | '\r' :: cs => '\n' :: unifyLineEnds cs
  | c :: cs => c :: unifyLineEnds cs

end QueryGlean.Utf8
