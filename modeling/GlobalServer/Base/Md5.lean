import GlobalServer.Lib.Bytes

/-!
# The digests of slience/base: `MD5`

`_update` gathers 64 bytes in the context's buffer before each `MD5Transform`,
and `_final` pads what it has gathered. The registers are words of 32 bits; the
count is one of 64 bits in two of them.
-/

namespace GlobalServer

open Bytes

namespace MD5Helper

structure State where
  a : UInt32
  b : UInt32
  c : UInt32
  d : UInt32
  deriving DecidableEq

def F (x y z : UInt32) : UInt32 := (x &&& y) ||| (~~~x &&& z)

def G (x y z : UInt32) : UInt32 := (x &&& z) ||| (y &&& ~~~z)

def H (x y z : UInt32) : UInt32 := x ^^^ y ^^^ z

def I (x y z : UInt32) : UInt32 := y ^^^ (x ||| ~~~z)

def rotateLeft (x n : UInt32) : UInt32 := (x <<< n) ||| (x >>> (32 - n))

/-- `FF`, `GG`, `HH` and `II`, by the function that they use. -/
def round (f : UInt32 → UInt32 → UInt32 → UInt32) (a b c d x s ac : UInt32) : UInt32 :=
  rotateLeft (a + (f b c d + x + ac)) s + b

def FF := round F

def GG := round G

def HH := round H

def II := round I

/-- The word whose bytes stand at `4 * i`. -/
def word (input : List UInt8) (i : Nat) : UInt32 :=
  let byte j := (input.getD (4 * i + j) 0).toUInt32
  byte 0 ||| (byte 1 <<< 8) ||| (byte 2 <<< 16) ||| (byte 3 <<< 24)

def decode (input : List UInt8) : List UInt32 := (List.range (input.length / 4)).map (word input)

def encodeWord (w : UInt32) : List UInt8 :=
  [(w &&& 0xff).toUInt8, ((w >>> 8) &&& 0xff).toUInt8, ((w >>> 16) &&& 0xff).toUInt8, ((w >>> 24) &&& 0xff).toUInt8]

def encode (ws : List UInt32) : List UInt8 := (ws.map encodeWord).flatten

def PADDING : List UInt8 := 0x80 :: List.replicate 63 0

def round1 (x : Nat → UInt32) (s : State) : State :=
  let ⟨a, b, c, d⟩ := s
  let a := FF a b c d (x 0) 7 0xd76aa478
  let d := FF d a b c (x 1) 12 0xe8c7b756
  let c := FF c d a b (x 2) 17 0x242070db
  let b := FF b c d a (x 3) 22 0xc1bdceee
  let a := FF a b c d (x 4) 7 0xf57c0faf
  let d := FF d a b c (x 5) 12 0x4787c62a
  let c := FF c d a b (x 6) 17 0xa8304613
  let b := FF b c d a (x 7) 22 0xfd469501
  let a := FF a b c d (x 8) 7 0x698098d8
  let d := FF d a b c (x 9) 12 0x8b44f7af
  let c := FF c d a b (x 10) 17 0xffff5bb1
  let b := FF b c d a (x 11) 22 0x895cd7be
  let a := FF a b c d (x 12) 7 0x6b901122
  let d := FF d a b c (x 13) 12 0xfd987193
  let c := FF c d a b (x 14) 17 0xa679438e
  let b := FF b c d a (x 15) 22 0x49b40821
  ⟨a, b, c, d⟩

def round2 (x : Nat → UInt32) (s : State) : State :=
  let ⟨a, b, c, d⟩ := s
  let a := GG a b c d (x 1) 5 0xf61e2562
  let d := GG d a b c (x 6) 9 0xc040b340
  let c := GG c d a b (x 11) 14 0x265e5a51
  let b := GG b c d a (x 0) 20 0xe9b6c7aa
  let a := GG a b c d (x 5) 5 0xd62f105d
  let d := GG d a b c (x 10) 9 0x2441453
  let c := GG c d a b (x 15) 14 0xd8a1e681
  let b := GG b c d a (x 4) 20 0xe7d3fbc8
  let a := GG a b c d (x 9) 5 0x21e1cde6
  let d := GG d a b c (x 14) 9 0xc33707d6
  let c := GG c d a b (x 3) 14 0xf4d50d87
  let b := GG b c d a (x 8) 20 0x455a14ed
  let a := GG a b c d (x 13) 5 0xa9e3e905
  let d := GG d a b c (x 2) 9 0xfcefa3f8
  let c := GG c d a b (x 7) 14 0x676f02d9
  let b := GG b c d a (x 12) 20 0x8d2a4c8a
  ⟨a, b, c, d⟩

def round3 (x : Nat → UInt32) (s : State) : State :=
  let ⟨a, b, c, d⟩ := s
  let a := HH a b c d (x 5) 4 0xfffa3942
  let d := HH d a b c (x 8) 11 0x8771f681
  let c := HH c d a b (x 11) 16 0x6d9d6122
  let b := HH b c d a (x 14) 23 0xfde5380c
  let a := HH a b c d (x 1) 4 0xa4beea44
  let d := HH d a b c (x 4) 11 0x4bdecfa9
  let c := HH c d a b (x 7) 16 0xf6bb4b60
  let b := HH b c d a (x 10) 23 0xbebfbc70
  let a := HH a b c d (x 13) 4 0x289b7ec6
  let d := HH d a b c (x 0) 11 0xeaa127fa
  let c := HH c d a b (x 3) 16 0xd4ef3085
  let b := HH b c d a (x 6) 23 0x4881d05
  let a := HH a b c d (x 9) 4 0xd9d4d039
  let d := HH d a b c (x 12) 11 0xe6db99e5
  let c := HH c d a b (x 15) 16 0x1fa27cf8
  let b := HH b c d a (x 2) 23 0xc4ac5665
  ⟨a, b, c, d⟩

def round4 (x : Nat → UInt32) (s : State) : State :=
  let ⟨a, b, c, d⟩ := s
  let a := II a b c d (x 0) 6 0xf4292244
  let d := II d a b c (x 7) 10 0x432aff97
  let c := II c d a b (x 14) 15 0xab9423a7
  let b := II b c d a (x 5) 21 0xfc93a039
  let a := II a b c d (x 12) 6 0x655b59c3
  let d := II d a b c (x 3) 10 0x8f0ccc92
  let c := II c d a b (x 10) 15 0xffeff47d
  let b := II b c d a (x 1) 21 0x85845dd1
  let a := II a b c d (x 8) 6 0x6fa87e4f
  let d := II d a b c (x 15) 10 0xfe2ce6e0
  let c := II c d a b (x 6) 15 0xa3014314
  let b := II b c d a (x 13) 21 0x4e0811a1
  let a := II a b c d (x 4) 6 0xf7537e82
  let d := II d a b c (x 11) 10 0xbd3af235
  let c := II c d a b (x 2) 15 0x2ad7d2bb
  let b := II b c d a (x 9) 21 0xeb86d391
  ⟨a, b, c, d⟩

/-- `MD5Transform`, whose constants `S11` to `S44` are written out. -/
def transform (s : State) (block : List UInt8) : State :=
  let x i := (decode block).getD i 0
  let t := round4 x (round3 x (round2 x (round1 x s)))
  ⟨s.a + t.a, s.b + t.b, s.c + t.c, s.d + t.d⟩

end MD5Helper

open MD5Helper

structure MD5_CTX where
  state : State
  count0 : UInt32
  count1 : UInt32
  /-- a block of 64 bytes -/
  buffer : List UInt8

namespace MD5_CTX

/-- `_init`, which leaves the buffer as it is. -/
def init (buffer : List UInt8) : MD5_CTX :=
  { state := ⟨0x67452301, 0xefcdab89, 0x98badcfe, 0x10325476⟩, count0 := 0, count1 := 0, buffer }

/-- So many bytes of the buffer await a transform. -/
def index (m : MD5_CTX) : Nat := ((m.count0 >>> 3) &&& 0x3F).toNat

/-- The count of bits after `inputLen` bytes more. -/
def counted (m : MD5_CTX) (inputLen : UInt32) : MD5_CTX :=
  let count0 := m.count0 + (inputLen <<< 3)
  let count1 := if count0 < inputLen <<< 3 then m.count1 + 1 else m.count1
  { m with count0, count1 := count1 + (inputLen >>> 29) }

/-- The loop of `_update` over the input's own blocks; a read past the input is a fault, so `i += 64` does not wrap. -/
def transformLoop (input : List UInt8) (s : State) (i : Nat) : Except Fault (State × Nat) :=
  if u32 (i + 63) < input.length then
    if i + 64 ≤ input.length then transformLoop input (transform s ((input.drop i).take 64)) (i + 64)
    else .error .outOfBounds
  else .ok (s, i)
termination_by input.length - i

/-- `_update(input, inputLen)` on an input of so many bytes. -/
def update (m : MD5_CTX) (input : List UInt8) : Except Fault MD5_CTX :=
  let partLen := 64 - m.index
  let n := m.counted (UInt32.ofNat input.length)
  if partLen ≤ input.length then do
    let filled := write m.buffer m.index (input.take partLen)
    let (state, i) ← transformLoop input (transform m.state filled) partLen
    .ok { n with state, buffer := write filled 0 (input.drop i) }
  else .ok { n with buffer := write m.buffer m.index input }

/-- `_final`: the digest that it stores. -/
def final (m : MD5_CTX) : Except Fault (List UInt8) := do
  let bits := encode [m.count0, m.count1]
  let padLen := if m.index < 56 then 56 - m.index else 120 - m.index
  let m ← m.update (PADDING.take padLen)
  let m ← m.update bits
  .ok (encode [m.state.a, m.state.b, m.state.c, m.state.d])

end MD5_CTX

/-- An `MD5` between its operations: `m_digest`, of 17 bytes. -/
structure MD5 where
  digest : List UInt8
  deriving DecidableEq

namespace MD5

def init : MD5 := { digest := List.replicate 17 0 }

/-- `encrypt` on a string whose `strlen` goes into an `unsigned int`; `buffer` is what the context's buffer holds. -/
def encrypt (buffer input : List UInt8) : Except Fault MD5 := do
  let m ← (MD5_CTX.init buffer).update (input.take (u32 input.length))
  let digest ← m.final
  .ok { digest := write (List.replicate 17 0) 0 digest }

def hexDigits : List Char := "0123456789ABCDEF".toList

def toString (m : MD5) : List Char :=
  ((m.digest.take 16).map fun x : UInt8 =>
    [hexDigits.getD ((x &&& 0xF0) >>> 4).toNat '0', hexDigits.getD (x &&& 0x0F).toNat '0']).flatten

/-- `operator==`, which compares all of `m_digest`. -/
def eq (m n : MD5) : Bool := m.digest == n.digest

end MD5

end GlobalServer
