import SignedRelay.Bytes

/-!
# SHA-256 and its keyed form

The compression function over eight words of thirty-two bits, Merkle–Damgård padding, and HMAC.
Main statement: a digest is 32 bytes long.
-/
namespace SignedRelay.Sha256

abbrev State := Vector UInt32 8

def rotateRight (word amount : UInt32) : UInt32 :=
  (word >>> amount) ||| (word <<< (32 - amount))

def initial : State :=
  #v[0x6a09e667, 0xbb67ae85, 0x3c6ef372, 0xa54ff53a, 0x510e527f, 0x9b05688c, 0x1f83d9ab, 0x5be0cd19]

def roundConstants : List UInt32 :=
  [0x428a2f98, 0x71374491, 0xb5c0fbcf, 0xe9b5dba5, 0x3956c25b, 0x59f111f1, 0x923f82a4, 0xab1c5ed5,
    0xd807aa98, 0x12835b01, 0x243185be, 0x550c7dc3, 0x72be5d74, 0x80deb1fe, 0x9bdc06a7, 0xc19bf174,
    0xe49b69c1, 0xefbe4786, 0x0fc19dc6, 0x240ca1cc, 0x2de92c6f, 0x4a7484aa, 0x5cb0a9dc, 0x76f988da,
    0x983e5152, 0xa831c66d, 0xb00327c8, 0xbf597fc7, 0xc6e00bf3, 0xd5a79147, 0x06ca6351, 0x14292967,
    0x27b70a85, 0x2e1b2138, 0x4d2c6dfc, 0x53380d13, 0x650a7354, 0x766a0abb, 0x81c2c92e, 0x92722c85,
    0xa2bfe8a1, 0xa81a664b, 0xc24b8b70, 0xc76c51a3, 0xd192e819, 0xd6990624, 0xf40e3585, 0x106aa070,
    0x19a4c116, 0x1e376c08, 0x2748774c, 0x34b0bcb5, 0x391c0cb3, 0x4ed8aa4a, 0x5b9cca4f, 0x682e6ff3,
    0x748f82ee, 0x78a5636f, 0x84c87814, 0x8cc70208, 0x90befffa, 0xa4506ceb, 0xbef9a3f7, 0xc67178f2]

/-- The word that starts at index `start`, most significant byte first. -/
def wordAt (data : Array UInt8) (start : Nat) : UInt32 :=
  (List.range 4).foldl (fun word k => (word <<< 8) ||| (data.getD (start + k) 0).toUInt32) 0

/-- The sixty-four words of one block's message schedule. -/
def schedule (data : Array UInt8) (start : Nat) : Array UInt32 :=
  (List.range 48).foldl
    (fun words i =>
      let w15 := words.getD (i + 1) 0
      let w2 := words.getD (i + 14) 0
      let s0 := rotateRight w15 7 ^^^ rotateRight w15 18 ^^^ (w15 >>> 3)
      let s1 := rotateRight w2 17 ^^^ rotateRight w2 19 ^^^ (w2 >>> 10)
      words.push (words.getD i 0 + s0 + words.getD (i + 9) 0 + s1))
    ((List.range 16).map fun i => wordAt data (start + 4 * i)).toArray

/-- One round, for a round constant added to a schedule word. -/
def round (s : State) (input : UInt32) : State :=
  let a := s[0]
  let e := s[4]
  let choice := (e &&& s[5]) ^^^ (~~~ e &&& s[6])
  let majority := (a &&& s[1]) ^^^ (a &&& s[2]) ^^^ (s[1] &&& s[2])
  let t1 := s[7] + (rotateRight e 6 ^^^ rotateRight e 11 ^^^ rotateRight e 25) + choice + input
  let t2 := (rotateRight a 2 ^^^ rotateRight a 13 ^^^ rotateRight a 22) + majority
  #v[t1 + t2, a, s[1], s[2], s[3] + t1, e, s[5], s[6]]

def compress (data : Array UInt8) (s : State) (start : Nat) : State :=
  let inputs := (schedule data start).toList.zipWith (· + ·) roundConstants
  let out := inputs.foldl round s
  Vector.ofFn fun i => s[i] + out[i]

/-- Input filled up to whole blocks of 64 bytes: a one bit, zeros, and the length in bits. -/
def pad (data : Bytes) : Bytes :=
  data ++ 0x80 :: List.replicate ((119 - data.length % 64) % 64) 0x00
    ++ Bytes.ofNatBE 8 (8 * data.length)

def wordBytes (word : UInt32) : Bytes :=
  [(word >>> 24).toUInt8, (word >>> 16).toUInt8, (word >>> 8).toUInt8, word.toUInt8]

def digest (data : Bytes) : Bytes :=
  let padded := (pad data).toArray
  let final := (List.range (padded.size / 64)).foldl
    (fun s block => compress padded s (64 * block)) initial
  (List.finRange 8).flatMap fun i => wordBytes final[i]

@[simp] theorem length_digest (data : Bytes) : (digest data).length = 32 := by
  simp [digest, wordBytes, List.finRange]

/-- The keyed hash: a key of at most one block masks both an inner and an outer digest. -/
def hmac (key data : Bytes) : Bytes :=
  let short := if key.length ≤ 64 then key else digest key
  let block := short ++ List.replicate (64 - short.length) 0x00
  digest (block.map (· ^^^ 0x5c) ++ digest (block.map (· ^^^ 0x36) ++ data))

@[simp] theorem length_hmac (key data : Bytes) : (hmac key data).length = 32 := length_digest _

end SignedRelay.Sha256
