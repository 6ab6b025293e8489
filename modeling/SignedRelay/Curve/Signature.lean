import SignedRelay.Bytes

/-!
# Recoverable signatures

A signature is a pair of numbers with one recovery bit. A scheme signs a digest with a private key
and recovers the public key from digest and signature. `SignatureScheme.Lawful` says what the
library's theorems assume of a scheme: its numbers fit a word, and recovery inverts signing.
-/
namespace SignedRelay

structure Signature where
  r : Nat
  s : Nat
  odd : Bool
  deriving DecidableEq, Repr

namespace Signature

/-- Both numbers as words, without the recovery bit. -/
def bytes (signature : Signature) : Bytes :=
  Bytes.ofNatBE 32 signature.r ++ Bytes.ofNatBE 32 signature.s

@[simp] theorem length_bytes (signature : Signature) : signature.bytes.length = 64 := by
  simp [bytes]

def recoveryBit (signature : Signature) : Nat := if signature.odd then 1 else 0

end Signature

/-- Private keys are the numbers from one up to, and without, `order`. A public key is the sixty-four
bytes of a point, without a leading mark. -/
structure SignatureScheme where
  order : Nat
  publicKey : Nat → Bytes
  length_publicKey : ∀ key, (publicKey key).length = 64
  sign : Nat → Bytes → Option Signature
  recover : Bytes → Signature → Option Bytes

namespace SignatureScheme

def ValidKey (scheme : SignatureScheme) (key : Nat) : Prop := 1 ≤ key ∧ key < scheme.order

structure Lawful (scheme : SignatureScheme) : Prop where
  r_lt {key digest signature} :
    scheme.sign key digest = some signature → signature.r < Bytes.capacity 32
  s_lt {key digest signature} :
    scheme.sign key digest = some signature → signature.s < Bytes.capacity 32
  recover_sign {key digest signature} : scheme.ValidKey key → digest.length = 32 →
    scheme.sign key digest = some signature →
    scheme.recover digest signature = some (scheme.publicKey key)

end SignatureScheme

end SignedRelay
