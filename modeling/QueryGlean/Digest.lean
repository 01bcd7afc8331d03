import QueryGlean.Text.Hex

namespace QueryGlean

structure Digest where
  a : UInt32
  b : UInt32
  c : UInt32
  d : UInt32
  e : UInt32
  f : UInt32
  g : UInt32
  h : UInt32
deriving DecidableEq, Inhabited

namespace Digest

def initial : Digest :=
  ⟨0x6a09e667, 0xbb67ae85, 0x3c6ef372, 0xa54ff53a, 0x510e527f, 0x9b05688c, 0x1f83d9ab, 0x5be0cd19⟩

def roundConstants : List UInt32 := [
  0x428a2f98, 0x71374491, 0xb5c0fbcf, 0xe9b5dba5, 0x3956c25b, 0x59f111f1, 0x923f82a4, 0xab1c5ed5,
  0xd807aa98, 0x12835b01, 0x243185be, 0x550c7dc3, 0x72be5d74, 0x80deb1fe, 0x9bdc06a7, 0xc19bf174,
  0xe49b69c1, 0xefbe4786, 0x0fc19dc6, 0x240ca1cc, 0x2de92c6f, 0x4a7484aa, 0x5cb0a9dc, 0x76f988da,
  0x983e5152, 0xa831c66d, 0xb00327c8, 0xbf597fc7, 0xc6e00bf3, 0xd5a79147, 0x06ca6351, 0x14292967,
  0x27b70a85, 0x2e1b2138, 0x4d2c6dfc, 0x53380d13, 0x650a7354, 0x766a0abb, 0x81c2c92e, 0x92722c85,
  0xa2bfe8a1, 0xa81a664b, 0xc24b8b70, 0xc76c51a3, 0xd192e819, 0xd6990624, 0xf40e3585, 0x106aa070,
  0x19a4c116, 0x1e376c08, 0x2748774c, 0x34b0bcb5, 0x391c0cb3, 0x4ed8aa4a, 0x5b9cca4f, 0x682e6ff3,
  0x748f82ee, 0x78a5636f, 0x84c87814, 0x8cc70208, 0x90befffa, 0xa4506ceb, 0xbef9a3f7, 0xc67178f2]

def rotateRight (x n : UInt32) : UInt32 :=
  (x >>> n) ||| (x <<< (32 - n))

def schedule (block : List UInt8) : List UInt32 :=
  extend 48 (words block).toArray |>.toList
where
  words : List UInt8 → List UInt32
    | p :: q :: r :: s :: rest =>
      ((p.toUInt32 <<< 24) ||| (q.toUInt32 <<< 16) ||| (r.toUInt32 <<< 8) ||| s.toUInt32) :: words rest
    | _ => []
  extend : Nat → Array UInt32 → Array UInt32
    | 0, ws => ws
    | n + 1, ws =>
      let at' (back : Nat) := ws.getD (ws.size - back) 0
      let s0 := rotateRight (at' 15) 7 ^^^ rotateRight (at' 15) 18 ^^^ (at' 15 >>> 3)
      let s1 := rotateRight (at' 2) 17 ^^^ rotateRight (at' 2) 19 ^^^ (at' 2 >>> 10)
      extend n (ws.push (at' 16 + s0 + at' 7 + s1))

def round (s : Digest) (kw : UInt32 × UInt32) : Digest :=
  let s1 := rotateRight s.e 6 ^^^ rotateRight s.e 11 ^^^ rotateRight s.e 25
  let choice := (s.e &&& s.f) ^^^ ((~~~s.e) &&& s.g)
  let t1 := s.h + s1 + choice + kw.1 + kw.2
  let s0 := rotateRight s.a 2 ^^^ rotateRight s.a 13 ^^^ rotateRight s.a 22
  let majority := (s.a &&& s.b) ^^^ (s.a &&& s.c) ^^^ (s.b &&& s.c)
  ⟨t1 + s0 + majority, s.a, s.b, s.c, s.d + t1, s.e, s.f, s.g⟩

def add (s t : Digest) : Digest :=
  ⟨s.a + t.a, s.b + t.b, s.c + t.c, s.d + t.d, s.e + t.e, s.f + t.f, s.g + t.g, s.h + t.h⟩

def compress (s : Digest) (block : List UInt8) : Digest :=
  s.add ((roundConstants.zip (schedule block)).foldl round s)

def pad (message : List UInt8) : List UInt8 :=
  message ++ 0x80 :: List.replicate ((119 - message.length % 64) % 64) 0 ++ lengthBytes 8 (8 * message.length)
where
  lengthBytes : Nat → Nat → List UInt8
    | 0, _ => []
    | n + 1, len => UInt8.ofNat (len >>> (8 * n)) :: lengthBytes n len

theorem length_lengthBytes (n len : Nat) : (pad.lengthBytes n len).length = n := by
  induction n <;> simp_all [pad.lengthBytes]

theorem length_pad (message : List UInt8) : (pad message).length % 64 = 0 := by
  simp only [pad, List.length_append, List.length_cons, List.length_replicate, length_lengthBytes]
  omega

def blocks (fuel : Nat) (bytes : List UInt8) : List (List UInt8) :=
  match fuel with
  | 0 => []
  | n + 1 => if bytes.isEmpty then [] else bytes.take 64 :: blocks n (bytes.drop 64)

def ofBytes (message : List UInt8) : Digest :=
  let padded := pad message
  (blocks (padded.length / 64) padded).foldl compress initial

def ofText (s : String) : Digest :=
  ofBytes s.toUTF8.data.toList

def words (s : Digest) : List UInt32 :=
  [s.a, s.b, s.c, s.d, s.e, s.f, s.g, s.h]

def toHex (s : Digest) : String :=
  String.ofList (s.words.flatMap fun w => hexDigits w.toNat 8)

end Digest

end QueryGlean
