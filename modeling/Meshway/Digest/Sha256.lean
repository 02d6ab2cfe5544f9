import Meshway.Bytes
set_option autoImplicit false

/-!
# SHA-256 (SPEC §3, §10.3 item 8)

The hash of FIPS 180-4 over byte strings.  A message is padded to whole blocks
of sixteen words; each block is mixed into eight chaining words by sixty-four
rounds over a sliding window of the message schedule.
-/

namespace Meshway.Sha256

/-- The eight chaining words. -/
structure Chain where
  a : UInt32
  b : UInt32
  c : UInt32
  d : UInt32
  e : UInt32
  f : UInt32
  g : UInt32
  h : UInt32
  deriving DecidableEq, Repr, Inhabited

/-- The chaining words before the first block. -/
def start : Chain :=
  ⟨0x6a09e667, 0xbb67ae85, 0x3c6ef372, 0xa54ff53a, 0x510e527f, 0x9b05688c, 0x1f83d9ab, 0x5be0cd19⟩

/-- One constant for each round. -/
def constants : List UInt32 := [
  0x428a2f98, 0x71374491, 0xb5c0fbcf, 0xe9b5dba5, 0x3956c25b, 0x59f111f1, 0x923f82a4, 0xab1c5ed5,
  0xd807aa98, 0x12835b01, 0x243185be, 0x550c7dc3, 0x72be5d74, 0x80deb1fe, 0x9bdc06a7, 0xc19bf174,
  0xe49b69c1, 0xefbe4786, 0x0fc19dc6, 0x240ca1cc, 0x2de92c6f, 0x4a7484aa, 0x5cb0a9dc, 0x76f988da,
  0x983e5152, 0xa831c66d, 0xb00327c8, 0xbf597fc7, 0xc6e00bf3, 0xd5a79147, 0x06ca6351, 0x14292967,
  0x27b70a85, 0x2e1b2138, 0x4d2c6dfc, 0x53380d13, 0x650a7354, 0x766a0abb, 0x81c2c92e, 0x92722c85,
  0xa2bfe8a1, 0xa81a664b, 0xc24b8b70, 0xc76c51a3, 0xd192e819, 0xd6990624, 0xf40e3585, 0x106aa070,
  0x19a4c116, 0x1e376c08, 0x2748774c, 0x34b0bcb5, 0x391c0cb3, 0x4ed8aa4a, 0x5b9cca4f, 0x682e6ff3,
  0x748f82ee, 0x78a5636f, 0x84c87814, 0x8cc70208, 0x90befffa, 0xa4506ceb, 0xbef9a3f7, 0xc67178f2]

/-- Rotation to the right. -/
def rotate (x : UInt32) (n : UInt32) : UInt32 := (x >>> n) ||| (x <<< (32 - n))

/-- One round with its constant and its word of the schedule. -/
def Chain.round (s : Chain) (k w : UInt32) : Chain :=
  let t1 := s.h + (rotate s.e 6 ^^^ rotate s.e 11 ^^^ rotate s.e 25)
    + ((s.e &&& s.f) ^^^ (~~~s.e &&& s.g)) + k + w
  let t2 := (rotate s.a 2 ^^^ rotate s.a 13 ^^^ rotate s.a 22)
    + ((s.a &&& s.b) ^^^ (s.a &&& s.c) ^^^ (s.b &&& s.c))
  ⟨t1 + t2, s.a, s.b, s.c, s.d + t1, s.e, s.f, s.g⟩

/-- The word that follows a window of sixteen words of the schedule. -/
def nextWord (window : List UInt32) : UInt32 :=
  let w0 := window.getD 0 0
  let w1 := window.getD 1 0
  let w9 := window.getD 9 0
  let w14 := window.getD 14 0
  w0 + (rotate w1 7 ^^^ rotate w1 18 ^^^ (w1 >>> 3)) + w9
    + (rotate w14 17 ^^^ rotate w14 19 ^^^ (w14 >>> 10))

/-- The rounds that remain, with the window whose first word is due. -/
def rounds : List UInt32 → List UInt32 → Chain → Chain
  | [], _, s => s
  | k :: ks, window, s =>
    rounds ks (window.drop 1 ++ [nextWord window]) (s.round k (window.getD 0 0))

/-- Mixes one block of sixteen words into the chaining words. -/
def Chain.mix (s : Chain) (block : List UInt32) : Chain :=
  let t := rounds constants block s
  ⟨s.a + t.a, s.b + t.b, s.c + t.c, s.d + t.d, s.e + t.e, s.f + t.f, s.g + t.g, s.h + t.h⟩

/-- The words of a byte string, four octets each. -/
def words : Bytes → List UInt32
  | a :: b :: c :: d :: rest => UInt32.ofNat (Bytes.toNat [a, b, c, d]) :: words rest
  | _ => []

/-- A message with its end mark, zeros up to a whole block, and its length in bits. -/
def padded (message : Bytes) : Bytes :=
  let size := message.length
  message ++ 0x80 :: (List.replicate ((119 - size % 64) % 64) 0 ++ Bytes.ofNat 8 (8 * size))

/-- Mixes a number of blocks, one after the other. -/
def absorb : Nat → List UInt32 → Chain → Chain
  | 0, _, s => s
  | n + 1, ws, s => absorb n (ws.drop 16) (s.mix (ws.take 16))

/-- The thirty-two octets of the hash of a message. -/
def hash (message : Bytes) : Bytes :=
  let ws := words (padded message)
  let s := absorb (ws.length / 16) ws start
  [s.a, s.b, s.c, s.d, s.e, s.f, s.g, s.h].flatMap fun w => Bytes.ofNat 4 w.toNat

theorem length_hash (message : Bytes) : (hash message).length = 32 := by
  simp [hash]

end Meshway.Sha256
