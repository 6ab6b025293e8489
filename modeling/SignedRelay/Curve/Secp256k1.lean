import SignedRelay.Curve.Signature
import SignedRelay.Hash.Sha256

/-!
# Signatures on secp256k1

The curve `y ^ 2 = x ^ 3 + 7` over a prime field, with points in Jacobian coordinates. Signing takes
its nonce from the key and the digest by RFC 6979 and keeps the lower of the two possible values of
`s`. Recovery accepts either value.
-/
namespace SignedRelay.Secp256k1

/-- The order of the field. -/
def p : Nat := 0xfffffffffffffffffffffffffffffffffffffffffffffffffffffffefffffc2f

/-- The order of the group. -/
def n : Nat := 0xfffffffffffffffffffffffffffffffebaaedce6af48a03bbfd25e8cd0364141

/-- The low 256 bits of a number, highest first. -/
def bits (e : Nat) : List Bool := (List.range 256).reverse.map e.testBit

/-- A power modulo `m`, for an exponent below `2 ^ 256`. -/
def powMod (m base e : Nat) : Nat :=
  (bits e).foldl
    (fun power bit => let square := power * power % m; if bit then square * base % m else square) 1

/-- The inverse modulo a prime. -/
def inverse (m a : Nat) : Nat := powMod m a (m - 2)

/-- The difference in the field. -/
def sub (a b : Nat) : Nat := (a + (p - b % p)) % p

/-- A point in Jacobian coordinates: `(x / z ^ 2, y / z ^ 3)`, at infinity where `z` is zero. -/
structure Point where
  x : Nat
  y : Nat
  z : Nat
  deriving DecidableEq, Repr

namespace Point

def infinity : Point := ⟨1, 1, 0⟩

def generator : Point where
  x := 0x79be667ef9dcbbac55a06295ce870b07029bfcdb2dce28d959f2815b16f81798
  y := 0x483ada7726a3c4655da4fbfc0e1108a8fd17b448a68554199c47d08ffb10d4b8
  z := 1

def double (a : Point) : Point :=
  let yy := a.y * a.y % p
  let s := 4 * a.x * yy % p
  let m := 3 * a.x * a.x % p
  let x := sub (m * m) (2 * s)
  { x, y := sub (m * sub s x) (8 * yy * yy), z := 2 * a.y * a.z % p }

def add (a b : Point) : Point :=
  if a.z = 0 then b
  else if b.z = 0 then a
  else
    let aa := a.z * a.z % p
    let bb := b.z * b.z % p
    let u1 := a.x * bb % p
    let u2 := b.x * aa % p
    let s1 := a.y * bb * b.z % p
    let s2 := b.y * aa * a.z % p
    if u1 = u2 then
      if s1 = s2 then a.double else infinity
    else
      let h := sub u2 u1
      let r := sub s2 s1
      let hh := h * h % p
      let hhh := hh * h % p
      let v := u1 * hh % p
      let x := sub (r * r) (hhh + 2 * v)
      { x, y := sub (r * sub v x) (s1 * hhh), z := h * a.z * b.z % p }

/-- A multiple of a point, for a factor below `2 ^ 256`. -/
def mul (k : Nat) (a : Point) : Point :=
  (bits k).foldl (fun sum bit => if bit then sum.double.add a else sum.double) infinity

/-- The affine coordinates of a point that is not at infinity. -/
def affine? (a : Point) : Option (Nat × Nat) :=
  if a.z = 0 then none
  else
    let i := inverse p a.z
    let ii := i * i % p
    some (a.x * ii % p, a.y * ii * i % p)

/-- The finite points with a given `x`, by the parity of `y`. -/
def withX? (x : Nat) (odd : Bool) : Option Point :=
  let square := (x * x * x + 7) % p
  let root := powMod p square ((p + 1) / 4)
  if root * root % p ≠ square then none
  else if (root % 2 == 1) = odd then some ⟨x, root, 1⟩
  else some ⟨x, p - root, 1⟩

end Point

/-- Affine coordinates as two words. -/
def pointBytes (xy : Nat × Nat) : Bytes := Bytes.ofNatBE 32 xy.1 ++ Bytes.ofNatBE 32 xy.2

def publicKey (key : Nat) : Bytes :=
  (Point.generator.mul key).affine?.elim (List.replicate 64 0) pointBytes

theorem length_publicKey (key : Nat) : (publicKey key).length = 64 := by
  unfold publicKey
  cases (Point.generator.mul key).affine? with
  | none => simp [Option.elim]
  | some xy => simp [Option.elim, pointBytes]

/-- One step of the nonce generator: its key and value after taking in `data`. -/
def reseed (data : Bytes) (state : Bytes × Bytes) : Bytes × Bytes :=
  let key := Sha256.hmac state.1 (state.2 ++ data)
  (key, Sha256.hmac key state.2)

/-- The first `count` nonce candidates for a key and a digest. -/
def candidates (key : Nat) (digest : Bytes) (count : Nat) : List Nat :=
  let seed := Bytes.ofNatBE 32 key ++ Bytes.ofNatBE 32 (Bytes.toNatBE digest % n)
  let start := reseed (0x01 :: seed) (reseed (0x00 :: seed)
    (List.replicate 32 0x00, List.replicate 32 0x01))
  (List.range count).map fun i =>
    let state := i.repeat (fun s => reseed [0x00] (s.1, Sha256.hmac s.1 s.2)) start
    Bytes.toNatBE (Sha256.hmac state.1 state.2)

/-- The signature with a given nonce, unless the nonce is unusable. -/
def signWith (key z k : Nat) : Option Signature := do
  if k = 0 ∨ n ≤ k then none
  let (x, y) ← (Point.generator.mul k).affine?
  let r := x % n
  let s := inverse n k * (z + r * key) % n
  if r = 0 ∨ s = 0 then none
  let odd := y % 2 == 1
  if n < 2 * s then some ⟨r, n - s, !odd⟩ else some ⟨r, s, odd⟩

/-- The number of nonce candidates tried. The first one fails for about one digest in `2 ^ 128`. -/
def attempts : Nat := 8

def sign (key : Nat) (digest : Bytes) : Option Signature :=
  (candidates key digest attempts).findSome? (signWith key (Bytes.toNatBE digest % n))

def recover (digest : Bytes) (signature : Signature) : Option Bytes := do
  let { r, s, odd } := signature
  if r = 0 ∨ n ≤ r ∨ s = 0 ∨ n ≤ s then none
  let point ← Point.withX? r odd
  let z := Bytes.toNatBE digest % n
  let i := inverse n r
  let key := ((Point.generator.mul ((n - z) * i % n)).add (point.mul (s * i % n)))
  return pointBytes (← key.affine?)

end SignedRelay.Secp256k1

namespace SignedRelay.SignatureScheme

def secp256k1 : SignatureScheme where
  order := Secp256k1.n
  publicKey := Secp256k1.publicKey
  length_publicKey := Secp256k1.length_publicKey
  sign := Secp256k1.sign
  recover := Secp256k1.recover

/-- The curve as seen by a party that has kept one signature and makes no other. -/
def recorded (key : Nat) (digest : Bytes) (signature : Signature) : SignatureScheme :=
  { secp256k1 with
    sign := fun k data => if k = key ∧ data = digest then some signature else none }

/-- All that such a party relies on is that its one signature recovers. -/
theorem lawful_recorded {key : Nat} {digest : Bytes} {signature : Signature}
    (hr : signature.r < Bytes.capacity 32) (hs : signature.s < Bytes.capacity 32)
    (hrecover : Secp256k1.recover digest signature = some (Secp256k1.publicKey key)) :
    (recorded key digest signature).Lawful := by
  have hsign {k : Nat} {data : Bytes} {found : Signature}
      (h : (recorded key digest signature).sign k data = some found) :
      (k = key ∧ data = digest) ∧ signature = found := by
    simpa [recorded] using h
  constructor
  · intro k data found h
    obtain ⟨_, rfl⟩ := hsign h
    exact hr
  · intro k data found h
    obtain ⟨_, rfl⟩ := hsign h
    exact hs
  · intro k data found _ _ h
    obtain ⟨⟨rfl, rfl⟩, rfl⟩ := hsign h
    exact hrecover

end SignedRelay.SignatureScheme
