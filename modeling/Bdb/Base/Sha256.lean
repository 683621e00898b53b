import Mathlib.Data.Nat.Notation

/-! # SHA-256

The hash of the UTF-8 bytes of a text, in lower-case hexadecimal. Words are natural
numbers below `2 ^ 32`.
-/
namespace Bdb.Sha256

def word : ℕ := 4294967296

def rotr (x n : ℕ) : ℕ := (x >>> n) ||| ((x <<< (32 - n)) % word)

def roundConstants : List ℕ :=
  [0x428a2f98,0x71374491,0xb5c0fbcf,0xe9b5dba5,0x3956c25b,0x59f111f1,0x923f82a4,0xab1c5ed5,
    0xd807aa98,0x12835b01,0x243185be,0x550c7dc3,0x72be5d74,0x80deb1fe,0x9bdc06a7,0xc19bf174,
    0xe49b69c1,0xefbe4786,0x0fc19dc6,0x240ca1cc,0x2de92c6f,0x4a7484aa,0x5cb0a9dc,0x76f988da,
    0x983e5152,0xa831c66d,0xb00327c8,0xbf597fc7,0xc6e00bf3,0xd5a79147,0x06ca6351,0x14292967,
    0x27b70a85,0x2e1b2138,0x4d2c6dfc,0x53380d13,0x650a7354,0x766a0abb,0x81c2c92e,0x92722c85,
    0xa2bfe8a1,0xa81a664b,0xc24b8b70,0xc76c51a3,0xd192e819,0xd6990624,0xf40e3585,0x106aa070,
    0x19a4c116,0x1e376c08,0x2748774c,0x34b0bcb5,0x391c0cb3,0x4ed8aa4a,0x5b9cca4f,0x682e6ff3,
    0x748f82ee,0x78a5636f,0x84c87814,0x8cc70208,0x90befffa,0xa4506ceb,0xbef9a3f7,0xc67178f2]

/-- The eight working variables. -/
structure State where
  a : ℕ
  b : ℕ
  c : ℕ
  d : ℕ
  e : ℕ
  f : ℕ
  g : ℕ
  h : ℕ

def initial : State :=
  ⟨0x6a09e667,0xbb67ae85,0x3c6ef372,0xa54ff53a,0x510e527f,0x9b05688c,0x1f83d9ab,0x5be0cd19⟩

/-- One round on the working variables. -/
def round (s : State) (k w : ℕ) : State :=
  let s1 := rotr s.e 6 ^^^ rotr s.e 11 ^^^ rotr s.e 25
  let ch := (s.e &&& s.f) ^^^ ((word - 1 - s.e) &&& s.g)
  let t1 := s.h + s1 + ch + k + w
  let s0 := rotr s.a 2 ^^^ rotr s.a 13 ^^^ rotr s.a 22
  let maj := (s.a &&& s.b) ^^^ (s.a &&& s.c) ^^^ (s.b &&& s.c)
  ⟨(t1 + s0 + maj) % word,s.a,s.b,s.c,(s.d + t1) % word,s.e,s.f,s.g⟩

/-- The rounds of one block. The window holds the next sixteen schedule words. -/
def rounds : List ℕ → List ℕ → State → State
  | k :: ks, w0 :: w1 :: rest, s =>
    let w9 := rest.getD 7 0
    let w14 := rest.getD 12 0
    let small0 := rotr w1 7 ^^^ rotr w1 18 ^^^ (w1 >>> 3)
    let small1 := rotr w14 17 ^^^ rotr w14 19 ^^^ (w14 >>> 10)
    rounds ks (w1 :: rest ++ [(w0 + small0 + w9 + small1) % word]) (round s k w0)
  | _, _, s => s

def addState (s t : State) : State :=
  ⟨(s.a + t.a) % word,(s.b + t.b) % word,(s.c + t.c) % word,(s.d + t.d) % word,(s.e + t.e) % word,
    (s.f + t.f) % word,(s.g + t.g) % word,(s.h + t.h) % word⟩

/-- Absorbs a padded message, sixteen words at a time. -/
def absorb : ℕ → List ℕ → State → State
  | 0, _, s => s
  | n + 1, ws, s => absorb n (ws.drop 16) (addState s (rounds roundConstants (ws.take 16) s))

def utf8 (c : Char) : List ℕ :=
  let n := c.toNat
  if n < 128 then [n]
  else if n < 2048 then [192 + n / 64,128 + n % 64]
  else if n < 65536 then [224 + n / 4096,128 + n / 64 % 64,128 + n % 64]
  else [240 + n / 262144,128 + n / 4096 % 64,128 + n / 64 % 64,128 + n % 64]

def words : List ℕ → List ℕ
  | a :: b :: c :: d :: rest => (a * 16777216 + b * 65536 + c * 256 + d) :: words rest
  | _ => []

def pad (bytes : List ℕ) : List ℕ :=
  let n := bytes.length
  bytes ++ [128] ++ List.replicate ((119 - n % 64) % 64) 0 ++
    [56,48,40,32,24,16,8,0].map (fun k => ((n * 8) >>> k) % 256)

def hexDigits (n : ℕ) : List Char :=
  [28,24,20,16,12,8,4,0].map (fun k => "0123456789abcdef".toList.getD ((n >>> k) % 16) '0')

def sha256 (cs : List Char) : String :=
  let message := pad (cs.flatMap utf8)
  let s := absorb (message.length / 64) (words message) initial
  String.ofList ([s.a,s.b,s.c,s.d,s.e,s.f,s.g,s.h].flatMap hexDigits)

example : sha256 "abc".toList =
    "ba7816bf8f01cfea414140de5dae2223b00361a396177a9cb410ff61f20015ad" := by decide +kernel

end Bdb.Sha256
