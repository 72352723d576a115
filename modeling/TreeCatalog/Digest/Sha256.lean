/-! # SHA-256

The hash of FIPS 180-4. A message is padded with a one bit, zeros and its length in bits (64 bits,
big-endian) to a whole number of 64-byte blocks; each block is expanded into a schedule of 64 words
and mixed into a state of eight words by 64 rounds; the digest is the final state, big-endian. -/

namespace TreeCatalog.Digest.Sha256

/-- The round constants: the first 32 bits of the fractional parts of the cube roots of the first
64 primes. -/
def roundConstants : Array UInt32 := #[
  0x428a2f98, 0x71374491, 0xb5c0fbcf, 0xe9b5dba5, 0x3956c25b, 0x59f111f1, 0x923f82a4, 0xab1c5ed5,
  0xd807aa98, 0x12835b01, 0x243185be, 0x550c7dc3, 0x72be5d74, 0x80deb1fe, 0x9bdc06a7, 0xc19bf174,
  0xe49b69c1, 0xefbe4786, 0x0fc19dc6, 0x240ca1cc, 0x2de92c6f, 0x4a7484aa, 0x5cb0a9dc, 0x76f988da,
  0x983e5152, 0xa831c66d, 0xb00327c8, 0xbf597fc7, 0xc6e00bf3, 0xd5a79147, 0x06ca6351, 0x14292967,
  0x27b70a85, 0x2e1b2138, 0x4d2c6dfc, 0x53380d13, 0x650a7354, 0x766a0abb, 0x81c2c92e, 0x92722c85,
  0xa2bfe8a1, 0xa81a664b, 0xc24b8b70, 0xc76c51a3, 0xd192e819, 0xd6990624, 0xf40e3585, 0x106aa070,
  0x19a4c116, 0x1e376c08, 0x2748774c, 0x34b0bcb5, 0x391c0cb3, 0x4ed8aa4a, 0x5b9cca4f, 0x682e6ff3,
  0x748f82ee, 0x78a5636f, 0x84c87814, 0x8cc70208, 0x90befffa, 0xa4506ceb, 0xbef9a3f7, 0xc67178f2]

/-- The initial state: the first 32 bits of the fractional parts of the square roots of the first
eight primes. -/
def initial : Array UInt32 :=
  #[0x6a09e667, 0xbb67ae85, 0x3c6ef372, 0xa54ff53a, 0x510e527f, 0x9b05688c, 0x1f83d9ab, 0x5be0cd19]

/-- Rotation right by `n` bits. -/
def rotr (x : UInt32) (n : UInt32) : UInt32 := (x >>> n) ||| (x <<< (32 - n))

/-- The round mix of the first working variable. -/
def bigSigma0 (x : UInt32) : UInt32 := rotr x 2 ^^^ rotr x 13 ^^^ rotr x 22

/-- The round mix of the fifth working variable. -/
def bigSigma1 (x : UInt32) : UInt32 := rotr x 6 ^^^ rotr x 11 ^^^ rotr x 25

/-- The schedule mix of the word fifteen back. -/
def smallSigma0 (x : UInt32) : UInt32 := rotr x 7 ^^^ rotr x 18 ^^^ (x >>> 3)

/-- The schedule mix of the word two back. -/
def smallSigma1 (x : UInt32) : UInt32 := rotr x 17 ^^^ rotr x 19 ^^^ (x >>> 10)

/-- Each bit from `y` where `x` has a one, else from `z`. -/
def choose (x y z : UInt32) : UInt32 := (x &&& y) ^^^ (~~~x &&& z)

/-- Each bit the majority of the three. -/
def majority (x y z : UInt32) : UInt32 := (x &&& y) ^^^ (x &&& z) ^^^ (y &&& z)

/-- The big-endian word of four bytes. -/
def word (b0 b1 b2 b3 : UInt8) : UInt32 :=
  (b0.toUInt32 <<< 24) ||| (b1.toUInt32 <<< 16) ||| (b2.toUInt32 <<< 8) ||| b3.toUInt32

/-- The big-endian words of a block. -/
def words : List UInt8 → List UInt32
  | b0 :: b1 :: b2 :: b3 :: rest => word b0 b1 b2 b3 :: words rest
  | _ => []

/-- The schedule of a block: its 16 words, extended to 64. -/
def schedule (block : List UInt8) : Array UInt32 :=
  (List.range 48).foldl (fun w i =>
    let t := i + 16
    w.push (smallSigma1 (w.getD (t - 2) 0) + w.getD (t - 7) 0 + smallSigma0 (w.getD (t - 15) 0) +
      w.getD (t - 16) 0))
    (words block).toArray

/-- One round on the working variables `a … h`. -/
def round (w : Array UInt32) (s : Array UInt32) (t : Nat) : Array UInt32 :=
  let a := s.getD 0 0
  let b := s.getD 1 0
  let c := s.getD 2 0
  let d := s.getD 3 0
  let e := s.getD 4 0
  let f := s.getD 5 0
  let g := s.getD 6 0
  let h := s.getD 7 0
  let t1 := h + bigSigma1 e + choose e f g + roundConstants.getD t 0 + w.getD t 0
  let t2 := bigSigma0 a + majority a b c
  #[t1 + t2, a, b, c, d + t1, e, f, g]

/-- The state after mixing in one block. -/
def compress (state : Array UInt32) (block : List UInt8) : Array UInt32 :=
  let w := schedule block
  let mixed := (List.range 64).foldl (round w) state
  (List.range 8).toArray.map fun i => state.getD i 0 + mixed.getD i 0

/-- The big-endian bytes of the low `n` bytes of a number. -/
def bigEndian (n : Nat) : Nat → List UInt8
  | 0 => []
  | k + 1 => bigEndian (n / 256) k ++ [(n % 256).toUInt8]

/-- A message padded to whole blocks. -/
def pad (msg : List UInt8) : List UInt8 :=
  let zeros := (119 - msg.length % 64) % 64
  msg ++ [0x80] ++ List.replicate zeros 0 ++ bigEndian (msg.length * 8) 8

/-- The blocks of a padded message. -/
def blocks (bs : List UInt8) : List (List UInt8) :=
  if _h : bs.length ≤ 64 then [bs] else bs.take 64 :: blocks (bs.drop 64)
termination_by bs.length
decreasing_by simp only [List.length_drop]; omega

/-- The digest of a message. -/
def hash (msg : List UInt8) : List UInt8 :=
  let final := (blocks (pad msg)).foldl compress initial
  final.toList.flatMap fun x => bigEndian x.toNat 4

theorem pad_length (msg : List UInt8) : (pad msg).length % 64 = 0 := by
  simp only [pad, List.length_append, List.length_cons, List.length_nil, List.length_replicate]
  have h : ∀ k n, (bigEndian n k).length = k := by
    intro k
    induction k with
    | zero => intro n; rfl
    | succ k ih => intro n; simp [bigEndian, ih]
  rw [h]
  omega

end TreeCatalog.Digest.Sha256
