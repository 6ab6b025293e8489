import SignedRelay.Hash.Hasher

/-!
# Keccak-256

The sponge over twenty-five lanes of sixty-four bits, with a rate of 136 bytes, the padding that
starts with the byte one, and a digest of four lanes. Main statement: a digest is 32 bytes long.
-/
namespace SignedRelay.Keccak

/-- Lane `(x, y)` stands at index `x + 5 * y`. -/
abbrev State := Vector UInt64 25

/-- The number of bytes absorbed by one permutation. -/
def rate : Nat := 136

def rotateLeft (lane amount : UInt64) : UInt64 :=
  (lane <<< amount) ||| (lane >>> (64 - amount))

/-- Rotation amounts by lane. -/
def rotations : Vector UInt64 25 :=
  #v[0, 1, 62, 28, 27, 36, 44, 6, 55, 20, 3, 10, 43, 25, 39, 41, 45, 15, 21, 8, 18, 2, 61, 56, 14]

/-- What each round adds to the first lane. -/
def roundConstants : List UInt64 :=
  [0x0000000000000001, 0x0000000000008082, 0x800000000000808a, 0x8000000080008000,
    0x000000000000808b, 0x0000000080000001, 0x8000000080008081, 0x8000000000008009,
    0x000000000000008a, 0x0000000000000088, 0x0000000080008009, 0x000000008000000a,
    0x000000008000808b, 0x800000000000008b, 0x8000000000008089, 0x8000000000008003,
    0x8000000000008002, 0x8000000000000080, 0x000000000000800a, 0x800000008000000a,
    0x8000000080008081, 0x8000000000008080, 0x0000000080000001, 0x8000000080008008]

/-- Add to each lane the parities of two neighbouring columns. -/
def mixColumns (s : State) : State :=
  let parity : Vector UInt64 5 := Vector.ofFn fun x =>
    s[x.val] ^^^ s[x.val + 5] ^^^ s[x.val + 10] ^^^ s[x.val + 15] ^^^ s[x.val + 20]
  Vector.ofFn fun i =>
    s[i] ^^^ parity[(i.val + 4) % 5] ^^^ rotateLeft parity[(i.val + 1) % 5] 1

/-- Rotate each lane and move it: lane `(x, y)` comes from `(x + 3 * y, x)`. -/
def moveLanes (s : State) : State :=
  Vector.ofFn fun i =>
    let source := (i.val % 5 + 3 * (i.val / 5)) % 5 + 5 * (i.val % 5)
    rotateLeft (s.get ⟨source, by omega⟩) (rotations.get ⟨source, by omega⟩)

/-- Combine each lane with the next two of its row. -/
def mixRows (s : State) : State :=
  Vector.ofFn fun i =>
    let row := 5 * (i.val / 5)
    let next := s.get ⟨row + (i.val + 1) % 5, by omega⟩
    let afterNext := s.get ⟨row + (i.val + 2) % 5, by omega⟩
    s[i] ^^^ (~~~ next &&& afterNext)

def round (s : State) (constant : UInt64) : State :=
  let s := mixRows (moveLanes (mixColumns s))
  s.set 0 (s[0] ^^^ constant)

def permute (s : State) : State := roundConstants.foldl round s

/-- Input filled up to whole blocks, with a one bit first and a one bit last. -/
def pad (data : Bytes) : Bytes :=
  let missing := rate - data.length % rate
  if missing = 1 then data ++ [0x81]
  else data ++ 0x01 :: List.replicate (missing - 2) 0x00 ++ [0x80]

/-- The lane that starts at index `start`, least significant byte first. -/
def laneAt (data : Array UInt8) (start : Nat) : UInt64 :=
  (List.range 8).foldr (fun k lane => (lane <<< 8) ||| (data.getD (start + k) 0).toUInt64) 0

/-- Add one block to the state and permute. -/
def absorb (data : Array UInt8) (s : State) (start : Nat) : State :=
  permute (Vector.ofFn fun i =>
    if i.val < rate / 8 then s[i] ^^^ laneAt data (start + 8 * i.val) else s[i])

def laneBytes (lane : UInt64) : Bytes :=
  (List.range 8).map fun k => (lane >>> (8 * k).toUInt64).toUInt8

@[simp] theorem length_laneBytes (lane : UInt64) : (laneBytes lane).length = 8 := by
  simp [laneBytes]

def digest (data : Bytes) : Bytes :=
  let padded := (pad data).toArray
  let final := (List.range (padded.size / rate)).foldl
    (fun s block => absorb padded s (rate * block)) (Vector.replicate 25 0)
  laneBytes final[0] ++ laneBytes final[1] ++ laneBytes final[2] ++ laneBytes final[3]

@[simp] theorem length_digest (data : Bytes) : (digest data).length = 32 := by
  simp [digest]

end SignedRelay.Keccak

namespace SignedRelay.Hasher

/-- Keccak-256, the primitive of Ethereum. -/
def keccak256 : Hasher := ⟨Keccak.digest⟩

theorem wordSized_keccak256 : keccak256.WordSized := Keccak.length_digest

end SignedRelay.Hasher
